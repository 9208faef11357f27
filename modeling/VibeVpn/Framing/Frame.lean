import VibeVpn.Crypto.Plain
import VibeVpn.Protocol.Wire

/-!
# Session frames

The wire format of `internal/framing/framing.go`: a random nonce followed by the AEAD ciphertext
of

    [session tag: 4][type: 1][seq: 4][payload length: 2][payload][padding...]

`sealFrame`, `openInto` and `parseInner` are `Seal`, `OpenInto` and `ParseInner` with every slice
expression checked.  The two readers never panic (`openInto_eq`, `parseInner_eq`); `sealFrame`
slices a pooled buffer of capacity `MaxWire` and panics exactly when the frame is longer
(`sealFrame_ok_iff`).

* `frame_codec_exact` : **opening inverts sealing, and parsing inverts the layout**: what
  `ParseInner` accepts is a header, a payload of the length the header says and padding, in exactly
  one way.
-/

namespace VibeVpn

/-- `Frame`: the decrypted metadata and payload of a session message. -/
structure Frame where
  /-- The session tag. -/
  tag : Byte4
  /-- The message type. -/
  typ : UInt8
  /-- The sequence number. -/
  seq : ℕ
  /-- The payload. -/
  payload : Bytes
  deriving DecidableEq

/-- The errors of the framing layer. -/
inductive FrameErr where
  /-- `ErrShort`: "framing: frame too short". -/
  | short
  /-- `ErrAuth`: "framing: authentication failed". -/
  | auth
  deriving DecidableEq, Repr

/-- The inner plaintext `Seal` lays out. -/
def innerOf (tag : Byte4) (typ : UInt8) (seq : ℕ) (payload padding : Bytes) : Bytes :=
  tag.toBytes ++ typ :: (be32 seq ++ be16 payload.length ++ payload ++ padding)

/-- `Seal`: the nonce and the ciphertext, built in a pooled buffer of capacity `MaxWire`. -/
def sealFrame (S : Suite) (k : S.Key) (nonce : Bytes) (tag : Byte4) (typ : UInt8) (seq : ℕ)
    (payload padding : Bytes) : Go Bytes := do
  let plen := innerHeaderLen + payload.length + padding.length
  resliceTo maxWire (nonceLen + plen + tagLen)
  let ct := S.aeadSeal k nonce (innerOf tag typ seq payload padding)
  resliceTo maxWire (nonceLen + ct.length)
  pure (nonce ++ ct)

/-- `OpenInto`: authenticate and decrypt a frame. -/
def openInto (S : Suite) (k : S.Key) (wire : Bytes) : Go (Except FrameErr Bytes) :=
  if wire.length < nonceLen + tagLen then pure (.error .short)
  else do
    let nonce ← slice wire 0 nonceLen
    let ct ← slice wire nonceLen wire.length
    match S.aeadOpen k nonce ct with
    | none => pure (.error .auth)
    | some inner =>
      if inner.length < innerHeaderLen then pure (.error .short) else pure (.ok inner)

/-- `ParseInner`: decode the header and the payload of an inner plaintext. -/
def parseInner (inner : Bytes) : Go (Except FrameErr Frame) :=
  if inner.length < innerHeaderLen then pure (.error .short)
  else do
    let tag ← slice inner 0 4
    let typ ← index inner 4
    let seq ← slice inner 5 9
    let len ← slice inner 9 11
    let plen := beVal len
    if inner.length < innerHeaderLen + plen then pure (.error .short)
    else do
      let payload ← slice inner innerHeaderLen (innerHeaderLen + plen)
      pure (.ok { tag := Byte4.copyOf tag, typ, seq := beVal seq, payload })

/-- `Open`: authenticate, decrypt and decode a frame. -/
def openFrame (S : Suite) (k : S.Key) (wire : Bytes) : Go (Except FrameErr Frame) := do
  match ← openInto S k wire with
  | .error e => pure (.error e)
  | .ok inner => parseInner inner

/-! ### The readers never panic -/

/-- The result of `openInto`. -/
def openWire (S : Suite) (k : S.Key) (wire : Bytes) : Except FrameErr Bytes :=
  if wire.length < nonceLen + tagLen then .error .short
  else match S.aeadOpen k (wire.take nonceLen) (wire.drop nonceLen) with
    | none => .error .auth
    | some inner => if inner.length < innerHeaderLen then .error .short else .ok inner

/-- The result of `parseInner`. -/
def parse (inner : Bytes) : Except FrameErr Frame :=
  if inner.length < innerHeaderLen then .error .short
  else
    let plen := beVal ((inner.take 11).drop 9)
    if inner.length < innerHeaderLen + plen then .error .short
    else .ok
      { tag := Byte4.copyOf (inner.take 4)
        typ := inner.getD 4 0
        seq := beVal ((inner.take 9).drop 5)
        payload := (inner.take (innerHeaderLen + plen)).drop innerHeaderLen }

/-- The frame `wire` carries under the key `k`, if it authenticates and parses. -/
def authenticate (S : Suite) (k : S.Key) (wire : Bytes) : Option Frame :=
  match openWire S k wire with
  | .error _ => none
  | .ok inner => match parse inner with
    | .error _ => none
    | .ok f => some f

theorem openInto_eq (S : Suite) (k : S.Key) (wire : Bytes) :
    openInto S k wire = .ok (openWire S k wire) := by
  unfold openInto openWire
  split_ifs with h
  · rfl
  · have hn : nonceLen ≤ wire.length := by unfold nonceLen tagLen at *; omega
    rw [slice_ok (Nat.zero_le _) hn, Go.ok_bind, slice_ok hn (Nat.le_refl _), Go.ok_bind]
    simp only [List.drop_zero, List.take_length]
    cases S.aeadOpen k (wire.take nonceLen) (wire.drop nonceLen) with
    | none => rfl
    | some inner => dsimp only; split_ifs <;> rfl

theorem parseInner_eq (inner : Bytes) : parseInner inner = .ok (parse inner) := by
  unfold parseInner parse
  split_ifs with h
  · rfl
  · have hl : 11 ≤ inner.length := by unfold innerHeaderLen at h; omega
    rw [slice_ok (by omega) (by omega), Go.ok_bind, index_ok (by omega), Go.ok_bind,
      slice_ok (by omega) (by omega), Go.ok_bind, slice_ok (by omega) hl, Go.ok_bind]
    dsimp only
    split_ifs with hp
    · rfl
    · have htyp : inner.getD 4 0 = inner[4] := by
        rw [List.getD, List.getElem?_eq_getElem (by omega), Option.getD_some]
      rw [slice_ok (by omega) (by omega), Go.ok_bind, List.drop_zero, htyp]
      rfl

/-- A frame authenticates only if its ciphertext opens. -/
theorem aeadOpen_of_authenticate {S : Suite} {k : S.Key} {wire : Bytes} {f : Frame}
    (h : authenticate S k wire = some f) :
    (S.aeadOpen k (wire.take nonceLen) (wire.drop nonceLen)).isSome := by
  unfold authenticate openWire at h
  split_ifs at h
  cases ho : S.aeadOpen k (wire.take nonceLen) (wire.drop nonceLen) with
  | none => rw [ho] at h; cases h
  | some inner => rfl

/-- The sequence number of a frame has 32 bits. -/
theorem seq_lt_of_authenticate {S : Suite} {k : S.Key} {wire : Bytes} {f : Frame}
    (h : authenticate S k wire = some f) : f.seq < 2 ^ 32 := by
  unfold authenticate at h
  split at h
  · cases h
  · next inner _ =>
    simp only [parse] at h
    split_ifs at h
    cases h
    refine Nat.lt_of_lt_of_le (beVal_lt _) (Nat.pow_le_pow_right (by decide) ?_)
    rw [List.length_drop, List.length_take]
    omega

/-- The overhead of a frame: its payload is at least 39 bytes shorter than its wire image. -/
theorem payload_length_of_authenticate {S : Suite} (hS : S.AeadLaws) {k : S.Key} {wire : Bytes}
    {f : Frame} (h : authenticate S k wire = some f) :
    nonceLen + innerHeaderLen + f.payload.length + tagLen ≤ wire.length := by
  unfold authenticate openWire at h
  split_ifs at h with hw
  cases ho : S.aeadOpen k (wire.take nonceLen) (wire.drop nonceLen) with
  | none => rw [ho] at h; cases h
  | some inner =>
    have hlen := hS.open_length _ _ _ _ ho
    rw [List.length_drop] at hlen
    rw [ho] at h
    by_cases hi : inner.length < innerHeaderLen
    · simp [hi] at h
    · simp only [hi, if_false, parse] at h
      split_ifs at h with hp
      cases h
      unfold tagLen nonceLen innerHeaderLen at *
      simp only [List.length_drop, List.length_take]
      omega

/-! ### Sealing, and the round trip -/

@[simp] theorem length_innerOf (tag : Byte4) (typ : UInt8) (seq : ℕ) (payload padding : Bytes) :
    (innerOf tag typ seq payload padding).length =
      innerHeaderLen + payload.length + padding.length := by
  simp [innerOf, innerHeaderLen]
  omega

section Seal

variable {S : Suite} {k k' : S.Key} {nonce payload padding wire : Bytes} {tag : Byte4}
  {typ : UInt8} {seq : ℕ}

/-- **`Seal` panics exactly when the frame does not fit a `MaxWire` buffer.** -/
theorem sealFrame_ok_iff (hlen : ∀ k n p, (S.aeadSeal k n p).length = p.length + 16) (k : S.Key)
    (nonce : Bytes) (tag : Byte4) (typ : UInt8) (seq : ℕ) {payload padding : Bytes} :
    (∃ w, sealFrame S k nonce tag typ seq payload padding = .ok w) ↔
      nonceLen + (innerHeaderLen + payload.length + padding.length) + tagLen ≤ maxWire := by
  constructor
  · rintro ⟨w, h⟩
    obtain ⟨u, hu, -⟩ := Go.bind_eq_ok.1 h
    exact resliceTo_eq_ok_iff.1 hu
  · intro h
    have h' : nonceLen + (S.aeadSeal k nonce (innerOf tag typ seq payload padding)).length ≤
        maxWire := by
      rw [hlen, length_innerOf]; unfold tagLen at h; omega
    refine ⟨nonce ++ S.aeadSeal k nonce (innerOf tag typ seq payload padding), ?_⟩
    simp only [sealFrame, resliceTo_ok h, resliceTo_ok h', Go.ok_bind, Go.pure_eq_ok]

theorem sealFrame_panics
    (h : maxWire < nonceLen + (innerHeaderLen + payload.length + padding.length) + tagLen) :
    sealFrame S k nonce tag typ seq payload padding = .error .sliceBounds := by
  have hslice : resliceTo maxWire
      (nonceLen + (innerHeaderLen + payload.length + padding.length) + tagLen) =
        .error .sliceBounds := if_neg (Nat.not_le.2 h)
  simp only [sealFrame, hslice]
  rfl

theorem sealFrame_eq_ok (h : sealFrame S k nonce tag typ seq payload padding = .ok wire) :
    wire = nonce ++ S.aeadSeal k nonce (innerOf tag typ seq payload padding) ∧
      nonceLen + (innerHeaderLen + payload.length + padding.length) + tagLen ≤ maxWire := by
  obtain ⟨u, hu, h⟩ := Go.bind_eq_ok.1 h
  obtain ⟨_, -, h⟩ := Go.bind_eq_ok.1 h
  cases h
  exact ⟨rfl, resliceTo_eq_ok_iff.1 hu⟩

/-- Opening the nonce and the ciphertext of an inner plaintext gives it back. -/
theorem openWire_append (hopen : ∀ k n p, S.aeadOpen k n (S.aeadSeal k n p) = some p)
    (hlen : ∀ k n p, (S.aeadSeal k n p).length = p.length + 16) (hn : nonce.length = nonceLen) :
    openWire S k (nonce ++ S.aeadSeal k nonce (innerOf tag typ seq payload padding)) =
      .ok (innerOf tag typ seq payload padding) := by
  unfold openWire
  have hl : ¬ (nonce ++ S.aeadSeal k nonce (innerOf tag typ seq payload padding)).length <
      nonceLen + tagLen := by
    rw [List.length_append, hn, hlen]; unfold tagLen; omega
  rw [if_neg hl, ← hn, List.take_left, List.drop_left, hopen]
  have hi : ¬ (innerOf tag typ seq payload padding).length < innerHeaderLen := by
    rw [length_innerOf]; omega
  exact if_neg hi

/-- What the AEAD makes of a sealed frame. -/
theorem openWire_sealFrame (hS : S.AeadLaws) (hn : nonce.length = nonceLen)
    (h : sealFrame S k nonce tag typ seq payload padding = .ok wire) :
    openWire S k wire = .ok (innerOf tag typ seq payload padding) := by
  obtain ⟨rfl, -⟩ := sealFrame_eq_ok h
  exact openWire_append hS.open_seal hS.seal_length hn

theorem openWire_sealFrame_key (hS : S.AeadLaws) (hn : nonce.length = nonceLen)
    (h : sealFrame S k nonce tag typ seq payload padding = .ok wire) {inner : Bytes}
    (ho : openWire S k' wire = .ok inner) : k' = k := by
  obtain ⟨rfl, -⟩ := sealFrame_eq_ok h
  unfold openWire at ho
  split_ifs at ho
  rw [← hn, List.take_left, List.drop_left] at ho
  cases hq : S.aeadOpen k' nonce (S.aeadSeal k nonce (innerOf tag typ seq payload padding)) with
  | none => rw [hq] at ho; cases ho
  | some q => exact hS.same_key _ _ _ _ _ hq

end Seal

/-! ### The codec is exact -/

/-- A byte string that holds a header, cut at its offsets. -/
theorem exists_header {inner : Bytes} (h : innerHeaderLen ≤ inner.length) :
    ∃ (tag : Byte4) (typ : UInt8) (seq len rest : Bytes), seq.length = 4 ∧ len.length = 2 ∧
      inner = tag.toBytes ++ typ :: (seq ++ len ++ rest) := by
  have hcut : ∀ b : Bytes, b.length = 11 → ∃ (tag : Byte4) (typ : UInt8) (seq len : Bytes),
      seq.length = 4 ∧ len.length = 2 ∧ b = tag.toBytes ++ typ :: (seq ++ len) := by
    intro b hb
    match b, hb with
    | [t₀, t₁, t₂, t₃, typ, s₀, s₁, s₂, s₃, l₀, l₁], _ =>
      exact ⟨⟨t₀, t₁, t₂, t₃⟩, typ, [s₀, s₁, s₂, s₃], [l₀, l₁], rfl, rfl, rfl⟩
  obtain ⟨tag, typ, seq, len, hs, hl, hb⟩ := hcut (inner.take innerHeaderLen)
    (by rw [List.length_take, Nat.min_eq_left h]; rfl)
  refine ⟨tag, typ, seq, len, inner.drop innerHeaderLen, hs, hl, ?_⟩
  calc inner = inner.take innerHeaderLen ++ inner.drop innerHeaderLen :=
        (List.take_append_drop _ _).symm
    _ = _ := by rw [hb]; simp

/-- `ParseInner` by the parts of the header. -/
theorem parse_header (tag : Byte4) (typ : UInt8) {seq len : Bytes} (rest : Bytes)
    (hs : seq.length = 4) (hl : len.length = 2) :
    parse (tag.toBytes ++ typ :: (seq ++ len ++ rest)) =
      if rest.length < beVal len then .error .short
      else .ok { tag, typ, seq := beVal seq, payload := rest.take (beVal len) } := by
  match seq, len, hs, hl with
  | [s₀, s₁, s₂, s₃], [l₀, l₁], _, _ =>
    have hlen : (tag.toBytes ++ typ :: ([s₀, s₁, s₂, s₃] ++ [l₀, l₁] ++ rest)).length =
        innerHeaderLen + rest.length := by
      simp [innerHeaderLen]
      omega
    have hpay : ((tag.toBytes ++ typ :: ([s₀, s₁, s₂, s₃] ++ [l₀, l₁] ++ rest)).take
        (innerHeaderLen + beVal [l₀, l₁])).drop innerHeaderLen = rest.take (beVal [l₀, l₁]) := by
      rw [List.drop_take, Nat.add_sub_cancel_left]
      rfl
    have hplen : beVal (((tag.toBytes ++ typ :: ([s₀, s₁, s₂, s₃] ++ [l₀, l₁] ++ rest)).take
        11).drop 9) = beVal [l₀, l₁] := rfl
    unfold parse
    dsimp only
    rw [hplen, hpay, hlen, if_neg (by omega)]
    simp only [Nat.add_lt_add_iff_left]
    rfl

/-- Parsing the inner plaintext of a frame gives back what was sealed, whatever the padding. -/
theorem parse_innerOf (tag : Byte4) (typ : UInt8) (seq : ℕ) (payload padding : Bytes)
    (hp : payload.length < 2 ^ 16) :
    parse (innerOf tag typ seq payload padding) =
      .ok { tag, typ, seq := seq % 2 ^ 32, payload } := by
  rw [innerOf, List.append_assoc (be32 seq ++ be16 payload.length),
    parse_header tag typ _ (length_be32 seq) (length_be16 _), beVal_be16, beVal_be32,
    Nat.mod_eq_of_lt hp, if_neg (by simp), List.take_left]

/-- What `ParseInner` accepts is an inner plaintext. -/
theorem eq_innerOf_of_parse {inner : Bytes} {f : Frame} (h : parse inner = .ok f) :
    f.seq < 2 ^ 32 ∧ f.payload.length < 2 ^ 16 ∧
      ∃ padding, inner = innerOf f.tag f.typ f.seq f.payload padding := by
  have hlen : innerHeaderLen ≤ inner.length := by
    unfold parse at h
    split_ifs at h with hlt
    exact Nat.not_lt.1 hlt
  obtain ⟨tag, typ, seq, len, rest, hs, hl, rfl⟩ := exists_header hlen
  rw [parse_header tag typ rest hs hl] at h
  split_ifs at h with hrest
  cases h
  have hpay : (rest.take (beVal len)).length = beVal len := by
    rw [List.length_take, Nat.min_eq_left (Nat.not_lt.1 hrest)]
  have hseq := beVal_lt seq
  have hplen := beVal_lt len
  rw [hs] at hseq
  rw [hl] at hplen
  refine ⟨hseq, by dsimp only; rw [hpay]; exact hplen, rest.drop (beVal len), ?_⟩
  dsimp only
  rw [innerOf, hpay, be32_beVal hs, be16_beVal hl, List.append_assoc (seq ++ len),
    List.take_append_drop]

/-- The parts of an inner plaintext are determined by it. -/
theorem innerOf_inj {tag tag' : Byte4} {typ typ' : UInt8} {seq seq' : ℕ}
    {payload payload' padding padding' : Bytes} (hs : seq < 2 ^ 32) (hs' : seq' < 2 ^ 32)
    (hp : payload.length < 2 ^ 16) (hp' : payload'.length < 2 ^ 16)
    (h : innerOf tag typ seq payload padding = innerOf tag' typ' seq' payload' padding') :
    tag = tag' ∧ typ = typ' ∧ seq = seq' ∧ payload = payload' ∧ padding = padding' := by
  have hparse := parse_innerOf tag typ seq payload padding hp
  rw [h, parse_innerOf tag' typ' seq' payload' padding' hp', Nat.mod_eq_of_lt hs,
    Nat.mod_eq_of_lt hs'] at hparse
  cases hparse
  exact ⟨rfl, rfl, rfl, rfl, by simpa [innerOf] using h⟩

section Exact

variable {S : Suite}

theorem openFrame_eq (k : S.Key) {wire inner : Bytes} (h : openWire S k wire = .ok inner) :
    openFrame S k wire = .ok (parse inner) := by
  rw [openFrame, openInto_eq, h, Go.ok_bind]
  exact parseInner_eq inner

/-- **The frame codec is exact.**  Every frame that fits opens to what was sealed, whatever its
padding; `ParseInner` accepts exactly the inner plaintexts, with a payload of at most 65535 bytes
and any padding, and returns their parts; and no byte string has two decompositions. -/
theorem frame_codec_exact (hopen : ∀ k n p, S.aeadOpen k n (S.aeadSeal k n p) = some p)
    (hlen : ∀ k n p, (S.aeadSeal k n p).length = p.length + 16) :
    (∀ (k : S.Key) (nonce : Bytes) (tag : Byte4) (typ : UInt8) (seq : ℕ) (payload padding : Bytes),
      nonce.length = nonceLen → seq < 2 ^ 32 →
      innerHeaderLen + payload.length + padding.length ≤ maxInner →
      ∃ wire, sealFrame S k nonce tag typ seq payload padding = .ok wire ∧
        openFrame S k wire = .ok (.ok { tag, typ, seq, payload })) ∧
    (∀ (inner : Bytes) (f : Frame), parseInner inner = .ok (.ok f) ↔
      f.seq < 2 ^ 32 ∧ f.payload.length < 2 ^ 16 ∧
        ∃ padding, inner = innerOf f.tag f.typ f.seq f.payload padding) ∧
    ∀ (f f' : Frame) (padding padding' : Bytes), f.seq < 2 ^ 32 → f'.seq < 2 ^ 32 →
      f.payload.length < 2 ^ 16 → f'.payload.length < 2 ^ 16 →
      innerOf f.tag f.typ f.seq f.payload padding =
        innerOf f'.tag f'.typ f'.seq f'.payload padding' → f = f' ∧ padding = padding' := by
  refine ⟨fun k nonce tag typ seq payload padding hn hs hfit => ?_, fun inner f => ?_,
    fun f f' padding padding' hs hs' hp hp' h => ?_⟩
  · have hp : payload.length < 2 ^ 16 := by
      simp only [maxInner, maxWire, nonceLen, tagLen, innerHeaderLen] at hfit
      omega
    obtain ⟨wire, hw⟩ := (sealFrame_ok_iff hlen k nonce tag typ seq).2
      (show nonceLen + (innerHeaderLen + payload.length + padding.length) + tagLen ≤ maxWire by
        simp only [maxInner, maxWire, nonceLen, tagLen] at hfit ⊢
        omega)
    refine ⟨wire, hw, ?_⟩
    obtain ⟨rfl, -⟩ := sealFrame_eq_ok hw
    rw [openFrame_eq k (openWire_append hopen hlen hn),
      parse_innerOf tag typ seq payload padding hp, Nat.mod_eq_of_lt hs]
  · rw [parseInner_eq]
    constructor
    · intro h
      exact eq_innerOf_of_parse (by simpa using h)
    · rintro ⟨hs, hp, padding, rfl⟩
      rw [parse_innerOf _ _ _ _ _ hp, Nat.mod_eq_of_lt hs]
  · obtain ⟨h₁, h₂, h₃, h₄, h₅⟩ := innerOf_inj hs hs' hp hp' h
    cases f
    cases f'
    simp_all

/-- A data frame whose padding looks like a header. -/
theorem frame_codec_exact_plain :
    (∃ wire, sealFrame plain (5 : UInt8) (List.replicate 12 0) ⟨1, 2, 3, 4⟩ msgData 7 [9, 9]
        [1, 2, 3, 4, 4, 0, 0, 0, 8, 0, 1] = .ok wire ∧
      openFrame plain (5 : UInt8) wire = .ok (.ok ⟨⟨1, 2, 3, 4⟩, msgData, 7, [9, 9]⟩)) ∧
    parseInner (innerOf ⟨1, 2, 3, 4⟩ msgData 7 [9, 9] [1, 2, 3]) =
      .ok (.ok ⟨⟨1, 2, 3, 4⟩, msgData, 7, [9, 9]⟩) := by
  have h := frame_codec_exact Plain.aeadLaws.open_seal Plain.aeadLaws.seal_length
  exact ⟨h.1 _ _ _ _ 7 [9, 9] _ rfl (by decide) (by decide),
    (h.2.1 _ ⟨⟨1, 2, 3, 4⟩, msgData, 7, [9, 9]⟩).2 ⟨by decide, by decide, [1, 2, 3], rfl⟩⟩

/-- **`ParseInner` accepts more than `Seal` can build**: it does not bound the length of what it
parses. -/
theorem parseInner_oversized : ∃ inner f, parseInner inner = .ok (.ok f) ∧
    ¬ ∃ (tag : Byte4) (typ : UInt8) (seq : ℕ) (payload padding : Bytes),
      innerHeaderLen + payload.length + padding.length ≤ maxInner ∧
      inner = innerOf tag typ seq payload padding := by
  refine ⟨innerOf ⟨0, 0, 0, 0⟩ 0 0 [] (List.replicate 65469 0), ⟨⟨0, 0, 0, 0⟩, 0, 0, []⟩, ?_, ?_⟩
  · rw [parseInner_eq, parse_innerOf _ _ _ _ _ (by decide), Nat.zero_mod]
  · rintro ⟨tag, typ, seq, payload, padding, hfit, h⟩
    have hlen := congrArg List.length h
    rw [length_innerOf, length_innerOf, List.length_replicate] at hlen
    simp only [maxInner, maxWire, nonceLen, tagLen, innerHeaderLen, List.length_nil] at hfit hlen
    omega

end Exact

end VibeVpn
