import VibeVpn.Go.Basic

/-!
# Buffered reading of a byte stream

`io.ReadFull` on a `bufio.Reader`, with the loop that calls `Read` again and again.  A connection
hands out its bytes in pieces of any size, and what a `Read` returns depends on the pieces, on the
size asked for and on what is buffered already (`Source.read`, `Reader.read`).

None of this shows in what `ReadFull` returns:

* `Reader.Holds` : the bytes and the final error that a reader is still going to deliver;
* `Reader.readFull_holds` : **`ReadFull` returns the next bytes of the stream, or its error when
  there are too few**, however the stream is cut into pieces.
-/

namespace VibeVpn

namespace Bufio

/-- An error of a read. -/
inductive ReadErr where
  /-- `io.EOF`. -/
  | eof
  /-- `io.ErrUnexpectedEOF`. -/
  | unexpectedEOF
  /-- Any other error, with its text. -/
  | fault (text : String)
  deriving DecidableEq, Repr

/-- The result of a `Read`: the bytes, the error and the reader it leaves. -/
structure Read (R : Type) where
  /-- The bytes read. -/
  bytes : Bytes
  /-- The error, if any. -/
  err : Option ReadErr
  /-- The reader afterwards. -/
  rest : R

/-! ### The connection -/

/-- The reading side of a connection. -/
structure Source where
  /-- The pieces in which the bytes arrive.  An empty one is a `Read` that returns nothing. -/
  pieces : List Bytes
  /-- The error of every `Read` after the last piece. -/
  last : ReadErr
  /-- The `Read` that takes the rest of the last piece returns the error as well. -/
  early : Bool

namespace Source

/-- The bytes that are still to arrive. -/
def content (c : Source) : Bytes := c.pieces.flatten

/-- `Read` into a slice of `m` bytes. -/
def read (c : Source) (m : ℕ) : Read Source :=
  match c.pieces with
  | [] => ⟨[], some c.last, c⟩
  | b :: bs =>
    if b.length ≤ m then
      ⟨b, if bs.isEmpty && c.early then some c.last else none, { c with pieces := bs }⟩
    else ⟨b.take m, none, { c with pieces := b.drop m :: bs }⟩

/-- What a `Read` can do. -/
structure Spec (c : Source) (m : ℕ) (x : Read Source) : Prop where
  content : c.content = x.bytes ++ x.rest.content
  length_le : x.bytes.length ≤ m
  last : x.rest.last = c.last
  drained : ∀ {e}, x.err = some e → e = c.last ∧ x.rest.pieces = []
  pieces_le : x.rest.pieces.length ≤ c.pieces.length
  progress : x.err = none → x.bytes = [] → x.rest.pieces.length < c.pieces.length

theorem read_spec (c : Source) {m : ℕ} (hm : 0 < m) : Spec c m (c.read m) := by
  obtain ⟨pieces, last, early⟩ := c
  cases pieces with
  | nil =>
    refine ⟨rfl, Nat.zero_le _, rfl, fun he => ?_, Nat.le_refl _, fun he => ?_⟩
    · exact ⟨(Option.some.inj he).symm, rfl⟩
    · cases he
  | cons b bs =>
    by_cases hb : b.length ≤ m
    · have heq : Source.read ⟨b :: bs, last, early⟩ m =
          ⟨b, if bs.isEmpty && early then some last else none, ⟨bs, last, early⟩⟩ := if_pos hb
      rw [heq]
      refine ⟨rfl, hb, rfl, fun he => ?_, Nat.le_succ _, fun _ _ => Nat.lt_succ_self _⟩
      simp only [Option.ite_none_right_eq_some, Bool.and_eq_true, List.isEmpty_iff] at he
      exact ⟨(Option.some.inj he.2).symm, he.1.1⟩
    · have heq : Source.read ⟨b :: bs, last, early⟩ m =
          ⟨b.take m, none, ⟨b.drop m :: bs, last, early⟩⟩ := if_neg hb
      have hlen : (b.take m).length = m := by
        rw [List.length_take]
        omega
      rw [heq]
      refine ⟨?_, Nat.le_of_eq hlen, rfl, fun he => ?_, Nat.le_refl _, fun _ hnil => ?_⟩
      · simp only [content, List.flatten_cons, ← List.append_assoc, List.take_append_drop]
      · cases he
      · exact absurd ((congrArg List.length hnil).symm.trans hlen) (Nat.ne_of_lt hm)

end Source

/-! ### The buffered reader -/

/-- `bufio.Reader`. -/
structure Reader where
  /-- `buf[r:w]`, the bytes read ahead. -/
  buf : Bytes
  /-- `err`, the error that came with them. -/
  err : Option ReadErr
  /-- `rd`. -/
  rd : Source

/-- `defaultBufSize`. -/
def bufSize : ℕ := 4096

namespace Reader

/-- `bufio.NewReader(rd)`. -/
def new (rd : Source) : Reader := ⟨[], none, rd⟩

/-- `Read` into a slice of `m` bytes. -/
def read (r : Reader) (m : ℕ) : Read Reader :=
  if m = 0 then
    if r.buf.isEmpty then ⟨[], r.err, { r with err := none }⟩ else ⟨[], none, r⟩
  else if r.buf.isEmpty then
    match r.err with
    | some e => ⟨[], some e, { r with err := none }⟩
    | none =>
      if bufSize ≤ m then
        -- A large read goes into the caller's slice.
        let x := r.rd.read m
        ⟨x.bytes, x.err, { r with rd := x.rest }⟩
      else
        let x := r.rd.read bufSize
        if x.bytes.isEmpty then ⟨[], x.err, { r with rd := x.rest }⟩
        else ⟨x.bytes.take m, none, ⟨x.bytes.drop m, x.err, x.rest⟩⟩
  else ⟨r.buf.take m, none, { r with buf := r.buf.drop m }⟩

/-- The bytes that the reader is still going to deliver. -/
def content (r : Reader) : Bytes := r.buf ++ r.rd.content

/-- An error is kept only once the connection has no more bytes, and is the connection's. -/
def Sound (r : Reader) : Prop := ∀ {e}, r.err = some e → e = r.rd.last ∧ r.rd.pieces = []

/-- What a `Read` can do. -/
structure Spec (r : Reader) (m : ℕ) (x : Read Reader) : Prop where
  content : r.content = x.bytes ++ x.rest.content
  length_le : x.bytes.length ≤ m
  last : x.rest.rd.last = r.rd.last
  sound : r.Sound → x.rest.Sound
  drained : r.Sound → ∀ {e}, x.err = some e → e = r.rd.last ∧ x.rest.content = []
  progress : x.err = none →
    x.rest.rd.pieces.length + (m - x.bytes.length) < r.rd.pieces.length + m

variable {rd : Source} {err : Option ReadErr} {m : ℕ}

theorem content_of_drained {rd : Source} {err : Option ReadErr} (h : rd.pieces = []) :
    Reader.content ⟨[], err, rd⟩ = [] := by
  simp [Reader.content, Source.content, h]

/-- The buffer is not empty: the connection is not read. -/
theorem spec_buffered (a : UInt8) (buf : Bytes) (hm : 0 < m) :
    Spec ⟨a :: buf, err, rd⟩ m ⟨(a :: buf).take m, none, ⟨(a :: buf).drop m, err, rd⟩⟩ where
  content := by simp only [Reader.content, ← List.append_assoc, List.take_append_drop]
  length_le := List.length_take_le _ _
  last := rfl
  sound := id
  drained := fun _ _ he => nomatch he
  progress := fun _ => by
    simp only [List.length_take, List.length_cons]
    omega

/-- The error that came with the buffered bytes is returned after them. -/
theorem spec_pending (e : ReadErr) : Spec ⟨[], some e, rd⟩ m ⟨[], some e, ⟨[], none, rd⟩⟩ where
  content := rfl
  length_le := Nat.zero_le _
  last := rfl
  sound := fun _ _ he => nomatch he
  drained := fun hs e' he => by
    obtain rfl := Option.some.inj he
    exact ⟨(hs rfl).1, content_of_drained (hs rfl).2⟩
  progress := fun he => nomatch he

/-- What the connection returns is passed on. -/
theorem spec_passed {k : ℕ} {x : Read Source} (hx : rd.Spec k x) (hlen : x.bytes.length ≤ m)
    (hm : 0 < m) : Spec ⟨[], none, rd⟩ m ⟨x.bytes, x.err, ⟨[], none, x.rest⟩⟩ where
  content := hx.content
  length_le := hlen
  last := hx.last
  sound := fun _ _ he => nomatch he
  drained := fun _ _ he => ⟨(hx.drained he).1, content_of_drained (hx.drained he).2⟩
  progress := fun he => by
    have hle := hx.pieces_le
    cases hb : x.bytes with
    | nil =>
      have := hx.progress he hb
      simp only [List.length_nil]
      omega
    | cons b bs =>
      simp only [List.length_cons]
      omega

/-- What the connection returns is buffered and returned from the buffer. -/
theorem spec_ahead {k : ℕ} {x : Read Source} (hx : rd.Spec k x) (hne : x.bytes ≠ []) (hm : 0 < m) :
    Spec ⟨[], none, rd⟩ m ⟨x.bytes.take m, none, ⟨x.bytes.drop m, x.err, x.rest⟩⟩ where
  content := by
    simp only [Reader.content, List.nil_append, ← List.append_assoc, List.take_append_drop]
    exact hx.content
  length_le := List.length_take_le _ _
  last := hx.last
  sound := fun _ _ he => ⟨(hx.drained he).1.trans hx.last.symm, (hx.drained he).2⟩
  drained := fun _ _ he => nomatch he
  progress := fun _ => by
    have hle := hx.pieces_le
    have hpos := List.length_pos_iff.2 hne
    simp only [List.length_take]
    omega

theorem read_spec (r : Reader) (hm : 0 < m) : Spec r m (r.read m) := by
  obtain ⟨buf, err, rd⟩ := r
  have hm0 : m ≠ 0 := Nat.ne_of_gt hm
  rw [read, if_neg hm0]
  match buf, err with
  | a :: buf, err => exact spec_buffered a buf hm
  | [], some e => exact spec_pending e
  | [], none =>
    simp only [List.isEmpty_nil, ↓reduceIte]
    by_cases hbig : bufSize ≤ m
    · have hx := rd.read_spec hm
      simp only [if_pos hbig]
      exact spec_passed hx hx.length_le hm
    · have hx := rd.read_spec (m := bufSize) (by decide)
      simp only [if_neg hbig]
      split_ifs with hnil
      · have hempty := List.isEmpty_iff.1 hnil
        have hpass := spec_passed hx (by rw [hempty]; exact Nat.zero_le m) hm
        rwa [hempty] at hpass
      · exact spec_ahead hx (fun h => hnil (List.isEmpty_iff.2 h)) hm

/-! ### ReadFull -/

/-- The loop of `io.ReadAtLeast`, with `m` bytes to go. -/
def readAtLeast (r : Reader) (m : ℕ) : Read Reader :=
  if _hm : m = 0 then ⟨[], none, r⟩
  else
    match _he : (r.read m).err with
    | some e => ⟨(r.read m).bytes, some e, (r.read m).rest⟩
    | none =>
      let y := (r.read m).rest.readAtLeast (m - (r.read m).bytes.length)
      ⟨(r.read m).bytes ++ y.bytes, y.err, y.rest⟩
termination_by r.rd.pieces.length + m
decreasing_by exact (r.read_spec (Nat.pos_of_ne_zero _hm)).progress _he

/-- `io.ReadFull`, of `m` bytes. -/
def readFull (r : Reader) (m : ℕ) : Except ReadErr Bytes × Reader :=
  let x := r.readAtLeast m
  (if m ≤ x.bytes.length then .ok x.bytes
    else match x.err with
      | none => .ok x.bytes
      | some e => .error (if x.bytes ≠ [] ∧ e = .eof then .unexpectedEOF else e),
    x.rest)

/-- What the loop does. -/
structure Filled (r : Reader) (m : ℕ) (x : Read Reader) : Prop where
  content : r.content = x.bytes ++ x.rest.content
  length_le : x.bytes.length ≤ m
  full : x.err = none → x.bytes.length = m
  last : x.rest.rd.last = r.rd.last
  sound : r.Sound → x.rest.Sound
  drained : r.Sound → ∀ {e}, x.err = some e → e = r.rd.last ∧ x.rest.content = []

theorem readAtLeast_filled (r : Reader) (m : ℕ) : Filled r m (r.readAtLeast m) := by
  fun_induction readAtLeast r m with
  | case1 r => exact ⟨rfl, Nat.le_refl _, fun _ => rfl, rfl, id, fun _ _ he => (nomatch he)⟩
  | case2 r m hm e he =>
    have hx := r.read_spec (Nat.pos_of_ne_zero hm)
    exact ⟨hx.content, hx.length_le, fun h => (nomatch h), hx.last, hx.sound, fun hs _ he' =>
      hx.drained hs (he.trans he')⟩
  | case3 r m hm he y ih =>
    have hx := r.read_spec (Nat.pos_of_ne_zero hm)
    have hy : Filled (r.read m).rest (m - (r.read m).bytes.length) y := ih
    have hle := hx.length_le
    refine ⟨?_, ?_, fun h => ?_, hy.last.trans hx.last, fun hs => hy.sound (hx.sound hs),
      fun hs e he' => ?_⟩
    · rw [hx.content, hy.content, List.append_assoc]
    · have := hy.length_le
      change ((r.read m).bytes ++ y.bytes).length ≤ m
      rw [List.length_append]
      omega
    · have := hy.full h
      change ((r.read m).bytes ++ y.bytes).length = m
      rw [List.length_append]
      omega
    · obtain ⟨hlast, hnil⟩ := hy.drained (hx.sound hs) he'
      exact ⟨hlast.trans hx.last, hnil⟩

/-- `ReadFull` returns all the bytes it was asked for, or an error. -/
theorem length_readFull {r r' : Reader} {m : ℕ} {b : Bytes} (h : r.readFull m = (.ok b, r')) :
    b.length = m ∧ r.content = b ++ r'.content := by
  have hx := r.readAtLeast_filled m
  have hle := hx.length_le
  simp only [readFull, Prod.mk.injEq] at h
  obtain ⟨hok, rfl⟩ := h
  split_ifs at hok with hm
  · obtain rfl := Except.ok.inj hok
    exact ⟨by omega, hx.content⟩
  · split at hok
    · next hnone => exact absurd (Nat.le_of_eq (hx.full hnone).symm) hm
    · cases hok

/-- The reader is still going to deliver the bytes `b`, and then the error `e`. -/
structure Holds (r : Reader) (b : Bytes) (e : ReadErr) : Prop where
  content : r.content = b
  last : r.rd.last = e
  sound : r.Sound

theorem Holds.new (rd : Source) : Holds (.new rd) rd.content rd.last :=
  ⟨rfl, rfl, fun h => nomatch h⟩

/-- The error of a stream that ends before the bytes asked for. -/
def short (b : Bytes) (e : ReadErr) : ReadErr := if b ≠ [] ∧ e = .eof then .unexpectedEOF else e

@[simp] theorem short_nil (e : ReadErr) : short [] e = e := by simp [short]

/-- **`ReadFull` returns the next bytes of the stream**, or its error when there are too few, and
leaves what follows them. -/
theorem readFull_holds {r : Reader} {b : Bytes} {e : ReadErr} (h : Holds r b e) (m : ℕ) :
    (r.readFull m).1 = (if m ≤ b.length then .ok (b.take m) else .error (short b e)) ∧
      Holds (r.readFull m).2 (b.drop m) e := by
  have hx := r.readAtLeast_filled m
  have hle := hx.length_le
  have hcontent := h.content.symm.trans hx.content
  have hlen := congrArg List.length hcontent
  rw [List.length_append] at hlen
  by_cases hm : m ≤ (r.readAtLeast m).bytes.length
  · have hbytes : (r.readAtLeast m).bytes.length = m := Nat.le_antisymm hle hm
    refine ⟨?_, ?_, hx.last.trans h.last, hx.sound h.sound⟩
    · rw [if_pos (by omega), hcontent, List.take_left' hbytes]
      exact if_pos hm
    · rw [hcontent, List.drop_left' hbytes]
      rfl
  · -- The loop has stopped at an error, so the stream is at its end.
    cases he : (r.readAtLeast m).err with
    | none => exact absurd (Nat.le_of_eq (hx.full he).symm) hm
    | some e' =>
      obtain ⟨hlast, hnil⟩ := hx.drained h.sound he
      rw [hnil, List.append_nil] at hcontent
      rw [h.last] at hlast
      refine ⟨?_, ?_, hx.last.trans h.last, hx.sound h.sound⟩
      · rw [hcontent, if_neg hm]
        simp only [readFull, hm, ↓reduceIte, he, hlast, short]
      · rw [List.drop_eq_nil_of_le (by rw [hcontent]; omega)]
        exact hnil

variable {r : Reader} {b : Bytes} {e : ReadErr}

/-- As many bytes as the stream has in front. -/
theorem readFull_append {p : Bytes} (h : Holds r (p ++ b) e) (hm : p.length = m) :
    ∃ r', r.readFull m = (.ok p, r') ∧ Holds r' b e := by
  obtain ⟨hres, hrest⟩ := readFull_holds h m
  rw [if_pos (by rw [List.length_append]; omega), List.take_left' hm] at hres
  rw [List.drop_left' hm] at hrest
  exact ⟨_, Prod.ext hres rfl, hrest⟩

/-- More bytes than the stream has. -/
theorem readFull_short (h : Holds r b e) (hm : b.length < m) :
    ∃ r', r.readFull m = (.error (short b e), r') := by
  have hres := (readFull_holds h m).1
  rw [if_neg (Nat.not_le.2 hm)] at hres
  exact ⟨_, Prod.ext hres rfl⟩

end Reader

end Bufio

end VibeVpn
