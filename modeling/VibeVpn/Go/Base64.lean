import VibeVpn.Go.Basic

/-!
# Unpadded base64

`base64.RawStdEncoding` of the standard library, on strings as byte slices.  The decoder is not
strict: it skips line breaks anywhere, and ignores the bits of the last character that no byte is
made of.  So a slice has many spellings, of which `encode` yields one.

* `Base64.decode_encode` : **decoding inverts encoding**.
* `Base64.colon_notMem_of_decode` : nothing that decodes contains a colon, so colons can separate
  encoded slices.
-/

namespace VibeVpn

namespace Base64

/-- `encodeStd[v]`, for a value of six bits. -/
def char (v : ℕ) : UInt8 :=
  UInt8.ofNat (if v < 26 then v + 65 else if v < 52 then v + 71 else if v < 62 then v - 4
    else if v = 62 then 43 else 47)

/-- `decodeMap[b]`; `none` stands for `0xff`. -/
def value (b : UInt8) : Option ℕ :=
  let n := b.toNat
  if 65 ≤ n ∧ n ≤ 90 then some (n - 65)
  else if 97 ≤ n ∧ n ≤ 122 then some (n - 71)
  else if 48 ≤ n ∧ n ≤ 57 then some (n + 4)
  else if n = 43 then some 62
  else if n = 47 then some 63
  else none

/-- The four values of six bits in 24 bits. -/
def sextets (val : ℕ) : List ℕ :=
  [val / 2 ^ 18 % 64, val / 2 ^ 12 % 64, val / 2 ^ 6 % 64, val % 64]

/-- `EncodeToString`. -/
def encode : Bytes → Bytes
  | a :: b :: c :: src =>
    (sextets (a.toNat * 2 ^ 16 + b.toNat * 2 ^ 8 + c.toNat)).map char ++ encode src
  | [a, b] => ((sextets (a.toNat * 2 ^ 16 + b.toNat * 2 ^ 8)).take 3).map char
  | [a] => ((sextets (a.toNat * 2 ^ 16)).take 2).map char
  | [] => []

/-- The bytes of a quantum of two to four values. -/
def quantum (dbuf : List ℕ) : Bytes :=
  let val := (dbuf ++ List.replicate (4 - dbuf.length) 0).foldl (fun acc v => acc * 64 + v) 0
  [UInt8.ofNat (val / 2 ^ 16), UInt8.ofNat (val / 2 ^ 8), UInt8.ofNat val].take (dbuf.length - 1)

/-- The decoder at the position `si`, with the values `dbuf` of the current quantum; the error is
the position in the message "illegal base64 data at input byte". -/
def decodeFrom (si : ℕ) (dbuf : List ℕ) : Bytes → Except ℕ Bytes
  | [] =>
    if dbuf.length = 0 then .ok []
    else if dbuf.length = 1 then .error (si - 1)
    else .ok (quantum dbuf)
  | b :: src =>
    match value b with
    | some v =>
      if dbuf.length < 3 then decodeFrom (si + 1) (dbuf ++ [v]) src
      else (decodeFrom (si + 1) [] src).map (quantum (dbuf ++ [v]) ++ ·)
    | none => if b = 10 ∨ b = 13 then decodeFrom (si + 1) dbuf src else .error si

/-- `DecodeString`. -/
def decode (s : Bytes) : Except ℕ Bytes := decodeFrom 0 [] s

theorem value_char {v : ℕ} (h : v < 64) : value (char v) = some v := by
  have hall : ∀ v : Fin 64, value (char v) = some v.val := by decide
  exact hall ⟨v, h⟩

/-- A character that does not end its quantum. -/
theorem decodeFrom_char {si v : ℕ} {dbuf : List ℕ} (hv : v < 64) (hlen : dbuf.length < 3)
    (src : Bytes) : decodeFrom si dbuf (char v :: src) = decodeFrom (si + 1) (dbuf ++ [v]) src := by
  rw [decodeFrom, value_char hv]
  exact if_pos hlen

/-- The last character of a quantum. -/
theorem decodeFrom_last {si v : ℕ} {dbuf : List ℕ} (hv : v < 64) (hlen : ¬ dbuf.length < 3)
    (src : Bytes) : decodeFrom si dbuf (char v :: src) =
      (decodeFrom (si + 1) [] src).map (quantum (dbuf ++ [v]) ++ ·) := by
  rw [decodeFrom, value_char hv]
  exact if_neg hlen

/-- The value of a quantum whose values are those of `val`. -/
theorem foldl_sextets {val : ℕ} (h : val < 2 ^ 24) :
    (sextets val).foldl (fun acc v => acc * 64 + v) 0 = val := by
  simp only [sextets, List.foldl_cons, List.foldl_nil]
  omega

theorem ofNat_eq {n : ℕ} {a : UInt8} (h : n % 2 ^ 8 = a.toNat) : UInt8.ofNat n = a := by
  apply UInt8.toNat_inj.1
  rw [UInt8.toNat_ofNat', h]

/-- The bytes of a whole quantum. -/
theorem quantum_sextets (a b c : UInt8) :
    quantum (sextets (a.toNat * 2 ^ 16 + b.toNat * 2 ^ 8 + c.toNat)) = [a, b, c] := by
  have ha := a.toNat_lt
  have hb := b.toNat_lt
  have hc := c.toNat_lt
  have hlen : ∀ val, (sextets val).length = 4 := fun _ => rfl
  simp only [quantum, hlen, Nat.sub_self, List.replicate_zero, List.append_nil]
  rw [foldl_sextets (by omega)]
  rw [ofNat_eq (a := a) (by omega), ofNat_eq (a := b) (by omega), ofNat_eq (a := c) (by omega)]
  rfl

theorem quantum_three (x y z : ℕ) : quantum [x, y, z] =
    [UInt8.ofNat (((x * 64 + y) * 64 + z) * 64 / 2 ^ 16),
      UInt8.ofNat (((x * 64 + y) * 64 + z) * 64 / 2 ^ 8)] := by
  simp [quantum]

theorem quantum_two (x y : ℕ) :
    quantum [x, y] = [UInt8.ofNat ((x * 64 + y) * 64 * 64 / 2 ^ 16)] := by
  simp [quantum]

/-- The bytes of a quantum of three values, the last of which ends in two zero bits. -/
theorem quantum_take_three (a b : UInt8) :
    quantum ((sextets (a.toNat * 2 ^ 16 + b.toNat * 2 ^ 8)).take 3) = [a, b] := by
  have ha := a.toNat_lt
  have hb := b.toNat_lt
  rw [sextets, List.take_succ_cons, List.take_succ_cons, List.take_succ_cons, List.take_zero,
    quantum_three, ofNat_eq (a := a) (by omega), ofNat_eq (a := b) (by omega)]

/-- The byte of a quantum of two values, the last of which ends in four zero bits. -/
theorem quantum_take_two (a : UInt8) : quantum ((sextets (a.toNat * 2 ^ 16)).take 2) = [a] := by
  have ha := a.toNat_lt
  rw [sextets, List.take_succ_cons, List.take_succ_cons, List.take_zero, quantum_two,
    ofNat_eq (a := a) (by omega)]

theorem decodeFrom_encode (si : ℕ) (b : Bytes) : decodeFrom si [] (encode b) = .ok b := by
  -- the induction follows the groups of three bytes
  induction b using encode.induct generalizing si with
  | case1 a b c src ih =>
    rw [encode]
    simp only [sextets, List.map_cons, List.map_nil, List.cons_append, List.nil_append]
    rw [decodeFrom_char (by omega) (by simp), decodeFrom_char (by omega) (by simp),
      decodeFrom_char (by omega) (by simp), decodeFrom_last (by omega) (by simp), ih]
    exact congrArg (fun q => Except.ok (q ++ src)) (quantum_sextets a b c)
  | case2 a b =>
    rw [encode]
    simp only [sextets, List.take_succ_cons, List.take_zero, List.map_cons, List.map_nil]
    rw [decodeFrom_char (by omega) (by simp), decodeFrom_char (by omega) (by simp),
      decodeFrom_char (by omega) (by simp)]
    exact congrArg Except.ok (quantum_take_three a b)
  | case3 a =>
    rw [encode]
    simp only [sextets, List.take_succ_cons, List.take_zero, List.map_cons, List.map_nil]
    rw [decodeFrom_char (by omega) (by simp), decodeFrom_char (by omega) (by simp)]
    exact congrArg Except.ok (quantum_take_two a)
  | case4 => rfl

/-- **Decoding inverts encoding.** -/
theorem decode_encode (b : Bytes) : decode (encode b) = .ok b := decodeFrom_encode 0 b

/-- The decoder accepts the alphabet and line breaks. -/
theorem mem_of_decodeFrom {si : ℕ} {dbuf : List ℕ} {s b : Bytes}
    (h : decodeFrom si dbuf s = .ok b) : ∀ c ∈ s, (value c).isSome ∨ c = 10 ∨ c = 13 := by
  induction s generalizing si dbuf b with
  | nil => exact fun c hc => by cases hc
  | cons c s ih =>
    -- the rest of the text is decoded on every path
    have hrest : ((value c).isSome ∨ c = 10 ∨ c = 13) ∧
        ∃ si' dbuf' b', decodeFrom si' dbuf' s = .ok b' := by
      rw [decodeFrom] at h
      cases hv : value c with
      | none =>
        simp only [hv] at h
        split_ifs at h with hbreak
        exact ⟨.inr hbreak, _, _, _, h⟩
      | some v =>
        refine ⟨.inl rfl, ?_⟩
        simp only [hv] at h
        split_ifs at h
        · exact ⟨_, _, _, h⟩
        · cases hd : decodeFrom (si + 1) [] s with
          | error i => rw [hd] at h; cases h
          | ok b' => exact ⟨_, _, _, hd⟩
    obtain ⟨hc, _, _, _, hs⟩ := hrest
    intro c' hc'
    obtain rfl | hc' := List.mem_cons.1 hc'
    · exact hc
    · exact ih hs c' hc'

/-- Nothing that decodes contains a colon. -/
theorem colon_notMem_of_decode {s b : Bytes} (h : decode s = .ok b) : 58 ∉ s := by
  intro hmem
  have := mem_of_decodeFrom h 58 hmem
  revert this
  decide

theorem encode_injective : Function.Injective encode := by
  intro b b' h
  have hdec : (Except.ok b : Except ℕ Bytes) = .ok b' := by
    rw [← decode_encode b, h, decode_encode b']
  exact Except.ok.inj hdec

end Base64

end VibeVpn
