import VibeVpn.Go.Bufio
import VibeVpn.LTS.Basic
import VibeVpn.Transport.Carrier
import Mathlib.Data.List.Perm.Basic

/-!
# Frames on a byte stream

`framed.Conn` of `internal/transport/framed` sends a frame as its length in four bytes and its
bytes, with two `Write`s under a lock, and receives it with two `ReadFull`s; `handleConn` of
`internal/transport/tlsx` reads the magic of a browser-mode client through the same buffered reader
first.

* `Framed.Sender.lts` : concurrent calls of `Send` in every interleaving, with writes that fail;
* `Framed.receiveAll` : `Receive` again and again, up to its first error;
* `Framed.receiveAll_eq_iff` : **the frames received are those a byte stream starts with**, however
  it arrives;
* `Framed.receiveAll_sent` : **what is received are the frames of the `Send`s that have returned
  without an error**, even when the stream breaks off inside a frame;
* `Framed.framed_stream` : the round trip, on a stream of either kind.
-/

namespace VibeVpn

open Bufio (Source ReadErr)

namespace Framed

/-! ### The format -/

/-- The frames that `Send` takes. -/
def Legal (f : Bytes) : Prop := f.length ≠ 0 ∧ f.length ≤ maxFrame

instance (f : Bytes) : Decidable (Legal f) := inferInstanceAs (Decidable (_ ∧ _))

/-- A frame on the wire. -/
def encode (f : Bytes) : Bytes := be32 f.length ++ f

/-- Frames on the wire, one after the other. -/
def encodeAll (fs : List Bytes) : Bytes := fs.flatMap encode

theorem encodeAll_append (fs gs : List Bytes) :
    encodeAll (fs ++ gs) = encodeAll fs ++ encodeAll gs :=
  List.flatMap_append

theorem encodeAll_singleton (f : Bytes) : encodeAll [f] = encode f := by simp [encodeAll]

theorem length_encode (f : Bytes) : (encode f).length = 4 + f.length := by simp [encode]

theorem Legal.beVal_be32 {f : Bytes} (h : Legal f) : beVal (be32 f.length) = f.length := by
  have hmax : maxFrame < 2 ^ 32 := by decide
  rw [VibeVpn.beVal_be32, Nat.mod_eq_of_lt (Nat.lt_of_le_of_lt h.2 hmax)]

/-! ### Receiving -/

/-- The errors of a `framed.Conn`. -/
inductive Err where
  /-- `ErrTooLarge`, "framed: frame too large". -/
  | tooLarge
  /-- "framed: invalid frame length". -/
  | invalidLength
  /-- An error of `io.ReadFull`. -/
  | read (e : ReadErr)
  /-- An error of `conn.Write`. -/
  | write
  deriving DecidableEq, Repr

/-- `Receive`. -/
def receive (r : Bufio.Reader) : Except Err Bytes × Bufio.Reader :=
  match r.readFull 4 with
  | (.error e, r') => (.error (.read e), r')
  | (.ok hdr, r') =>
    if beVal hdr = 0 ∨ maxFrame < beVal hdr then (.error .invalidLength, r')
    else match r'.readFull (beVal hdr) with
      | (.error e, r'') => (.error (.read e), r'')
      | (.ok buf, r'') => (.ok buf, r'')

/-- A received frame was next on the stream. -/
theorem receive_eq_ok {r r' : Bufio.Reader} {f : Bytes} (h : receive r = (.ok f, r')) :
    Legal f ∧ r.content = encode f ++ r'.content := by
  unfold receive at h
  split at h
  · cases h
  · next hdr r₁ hhdr =>
    obtain ⟨hlen, hcontent⟩ := Bufio.Reader.length_readFull hhdr
    split at h
    · cases h
    · next hlegal =>
      split at h
      · cases h
      · next buf r₂ hbuf =>
        cases h
        obtain ⟨hlen', hcontent'⟩ := Bufio.Reader.length_readFull hbuf
        have hhdr' : hdr = be32 f.length := by rw [hlen', be32_beVal hlen]
        refine ⟨⟨by omega, by omega⟩, ?_⟩
        rw [hcontent, hcontent', hhdr', encode, List.append_assoc]

/-- `Receive` called again and again: the frames before its first error, and the error. -/
def receiveAll (r : Bufio.Reader) : List Bytes × Err :=
  match _h : receive r with
  | (.error e, _) => ([], e)
  | (.ok f, r') =>
    let x := receiveAll r'
    (f :: x.1, x.2)
termination_by r.content.length
decreasing_by
  rw [(receive_eq_ok _h).2, List.length_append, length_encode]
  omega

variable {r : Bufio.Reader} {b : Bytes} {e : ReadErr} {f : Bytes} {fs : List Bytes}

theorem receiveAll_ok {r' : Bufio.Reader} (h : receive r = (.ok f, r')) :
    receiveAll r = (f :: (receiveAll r').1, (receiveAll r').2) := by
  rw [receiveAll]
  split
  · next heq => rw [h] at heq; cases heq
  · next heq => rw [h] at heq; cases heq; rfl

theorem receiveAll_error {err : Err} (h : (receive r).1 = .error err) :
    receiveAll r = ([], err) := by
  rw [receiveAll]
  split
  · next heq => rw [heq] at h; cases h; rfl
  · next heq => rw [heq] at h; cases h

/-- A complete frame is received, and what follows it is left. -/
theorem receive_encode (h : r.Holds (encode f ++ b) e) (hf : Legal f) :
    ∃ r', receive r = (.ok f, r') ∧ r'.Holds b e := by
  rw [encode, List.append_assoc] at h
  obtain ⟨r₁, hhdr, hr₁⟩ := Bufio.Reader.readFull_append h (length_be32 _)
  obtain ⟨r', hbuf, hr'⟩ := Bufio.Reader.readFull_append hr₁ rfl
  have hlegal : ¬ (f.length = 0 ∨ maxFrame < f.length) := fun hor =>
    hor.elim hf.1 (Nat.not_lt.2 hf.2)
  refine ⟨r', ?_, hr'⟩
  rw [receive, hhdr]
  dsimp only
  rw [hf.beVal_be32, if_neg hlegal, hbuf]

/-- The frames at the front of a stream are received one after the other. -/
theorem receiveAll_encodeAll (h : r.Holds (encodeAll fs ++ b) e) (hfs : ∀ f ∈ fs, Legal f) :
    ∃ r', r'.Holds b e ∧ receiveAll r = (fs ++ (receiveAll r').1, (receiveAll r').2) := by
  induction fs generalizing r with
  | nil => exact ⟨r, h, rfl⟩
  | cons f fs ih =>
    rw [List.forall_mem_cons] at hfs
    rw [encodeAll, List.flatMap_cons, List.append_assoc] at h
    obtain ⟨r₁, hrecv, hr₁⟩ := receive_encode h hfs.1
    obtain ⟨r', hr', hall⟩ := ih hr₁ hfs.2
    exact ⟨r', hr', by rw [receiveAll_ok hrecv, hall]; rfl⟩

/-- A stream does not start with a complete frame. -/
def NoFrame (b : Bytes) : Prop := ¬ ∃ f b', Legal f ∧ b = encode f ++ b'

theorem receiveAll_of_noFrame (h : r.Holds b e) (hb : NoFrame b) : (receiveAll r).1 = [] := by
  cases hrecv : receive r with
  | mk res r' =>
    cases res with
    | error err => rw [receiveAll_error (congrArg Prod.fst hrecv)]
    | ok f =>
      obtain ⟨hf, hcontent⟩ := receive_eq_ok hrecv
      exact absurd ⟨f, r'.content, hf, h.content.symm.trans hcontent⟩ hb

/-- **The frames received are those that the stream starts with**, up to the first place where no
complete frame of a legal length follows. -/
theorem receiveAll_eq_iff (h : r.Holds b e) : (receiveAll r).1 = fs ↔
    (∀ f ∈ fs, Legal f) ∧ ∃ rest, b = encodeAll fs ++ rest ∧ NoFrame rest := by
  constructor
  · rintro rfl
    -- The induction is on the frames received.
    generalize hx : receiveAll r = x
    obtain ⟨fs, err⟩ := x
    induction fs generalizing r b with
    | nil =>
      refine ⟨fun f hf => (nomatch hf), b, rfl, ?_⟩
      rintro ⟨f, b', hf, rfl⟩
      obtain ⟨r', hrecv, -⟩ := receive_encode h hf
      rw [receiveAll_ok hrecv] at hx
      cases hx
    | cons f fs ih =>
      cases hrecv : receive r with
      | mk res r' =>
        cases res with
        | error err' =>
          rw [receiveAll_error (congrArg Prod.fst hrecv)] at hx
          cases hx
        | ok f' =>
          obtain ⟨hf', hcontent⟩ := receive_eq_ok hrecv
          obtain rfl := h.content.symm.trans hcontent
          obtain ⟨r₁, hrecv₁, hr₁⟩ := receive_encode h hf'
          obtain rfl : r' = r₁ := congrArg Prod.snd (hrecv.symm.trans hrecv₁)
          rw [receiveAll_ok hrecv] at hx
          cases hx
          obtain ⟨hfs, rest, hrest, hno⟩ := ih hr₁ rfl
          refine ⟨List.forall_mem_cons.2 ⟨hf', hfs⟩, rest, ?_, hno⟩
          rw [hrest, encodeAll, encodeAll, List.flatMap_cons, List.append_assoc]
  · rintro ⟨hfs, rest, rfl, hrest⟩
    obtain ⟨r', hr', hall⟩ := receiveAll_encodeAll h hfs
    rw [hall, receiveAll_of_noFrame hr' hrest, List.append_nil]

/-! ### Sending -/

/-- Which of its two `Write`s a `Send` that holds the lock does next. -/
inductive Phase where
  /-- The length. -/
  | header
  /-- The frame. -/
  | body
  deriving DecidableEq, Repr

/-- The sending side of a `framed.Conn`. -/
structure Sender where
  /-- All bytes written so far. -/
  wire : Bytes
  /-- The frames of the `Send`s that wait for `wmu`. -/
  waiting : List Bytes
  /-- The frame of the `Send` that holds `wmu`. -/
  holder : Option (Bytes × Phase)
  /-- A `Write` has failed; then all do. -/
  broken : Bool
  /-- History: the frames in the order in which their `Send`s have acquired `wmu`. -/
  locked : List Bytes
  /-- History: the frames whose `Send`s have returned, with the error. -/
  returned : List (Bytes × Option Err)

namespace Sender

/-- A connection on which `greeting` has been written. -/
def start (greeting : Bytes) : Sender where
  wire := greeting
  waiting := []
  holder := none
  broken := false
  locked := []
  returned := []

/-- The frames of the `Send`s that returned without an error. -/
def successes (rs : List (Bytes × Option Err)) : List Bytes :=
  rs.filterMap fun r => if r.2 = none then some r.1 else none

@[simp] theorem successes_ok (rs : List (Bytes × Option Err)) (f : Bytes) :
    successes (rs ++ [(f, none)]) = successes rs ++ [f] := by
  simp [successes]

@[simp] theorem successes_error (rs : List (Bytes × Option Err)) (f : Bytes) (e : Err) :
    successes (rs ++ [(f, some e)]) = successes rs := by
  simp [successes]

/-- The frames whose `Send`s have returned without an error. -/
def sent (x : Sender) : List Bytes := successes x.returned

/-- The bytes of the next `Write`. -/
def piece : Bytes × Phase → Bytes
  | (f, .header) => be32 f.length
  | (f, .body) => f

/-- The steps of the goroutines that call `Send`. -/
inductive Label where
  /-- A call of `Send`, up to the lock. -/
  | call (f : Bytes)
  /-- The call at a position acquires the lock. -/
  | lock (i : ℕ)
  /-- The next `Write`; the second one releases the lock and returns. -/
  | write
  /-- The next `Write` fails after some bytes; `Send` releases the lock and returns the error. -/
  | fail (k : ℕ)
  deriving DecidableEq, Repr

/-- One step. -/
def step (x : Sender) : Label → Except Unit Sender
  | .call f =>
    if Legal f then .ok { x with waiting := x.waiting ++ [f] }
    else .ok { x with returned := x.returned ++ [(f, some .tooLarge)] }
  | .lock i =>
    match x.holder, x.waiting[i]? with
    | none, some f => .ok
        { x with
          waiting := x.waiting.eraseIdx i
          holder := some (f, .header)
          locked := x.locked ++ [f] }
    | _, _ => .error ()
  | .write =>
    match x.holder, x.broken with
    | some (f, .header), false => .ok
        { x with wire := x.wire ++ be32 f.length, holder := some (f, .body) }
    | some (f, .body), false => .ok
        { x with wire := x.wire ++ f, holder := none, returned := x.returned ++ [(f, none)] }
    | _, _ => .error ()
  | .fail k =>
    match x.holder with
    | none => .error ()
    | some h =>
      if k < (piece h).length ∧ (x.broken = true → k = 0) then .ok
        { x with
          wire := x.wire ++ (piece h).take k
          holder := none
          broken := true
          returned := x.returned ++ [(h.1, some .write)] }
      else .error ()

/-- The steps in every interleaving. -/
def lts : LTS Sender Label := LTS.ofExcept step

/-- What a step does, case by case. -/
inductive Step (x : Sender) : Label → Sender → Prop where
  | refuse {f : Bytes} : ¬ Legal f →
      Step x (.call f) { x with returned := x.returned ++ [(f, some .tooLarge)] }
  | call {f : Bytes} : Legal f → Step x (.call f) { x with waiting := x.waiting ++ [f] }
  | lock {i : ℕ} {f : Bytes} : x.holder = none → x.waiting[i]? = some f →
      Step x (.lock i)
        { x with
          waiting := x.waiting.eraseIdx i
          holder := some (f, .header)
          locked := x.locked ++ [f] }
  | header {f : Bytes} : x.holder = some (f, .header) → x.broken = false →
      Step x .write { x with wire := x.wire ++ be32 f.length, holder := some (f, .body) }
  | body {f : Bytes} : x.holder = some (f, .body) → x.broken = false →
      Step x .write
        { x with wire := x.wire ++ f, holder := none, returned := x.returned ++ [(f, none)] }
  | fail {k : ℕ} {h : Bytes × Phase} : x.holder = some h → k < (piece h).length →
      (x.broken = true → k = 0) →
      Step x (.fail k)
        { x with
          wire := x.wire ++ (piece h).take k
          holder := none
          broken := true
          returned := x.returned ++ [(h.1, some .write)] }

theorem step_cases {x x' : Sender} {l : Label} (h : x.step l = .ok x') : Step x l x' := by
  cases l with
  | call f =>
    simp only [step] at h
    split_ifs at h with hf
    · cases h
      exact .call hf
    · cases h
      exact .refuse hf
  | lock i =>
    simp only [step] at h
    split at h
    · next hn hw =>
      cases h
      exact .lock hn hw
    · cases h
  | write =>
    simp only [step] at h
    split at h
    · next hh hb =>
      cases h
      exact .header hh hb
    · next hh hb =>
      cases h
      exact .body hh hb
    · cases h
  | fail k =>
    simp only [step] at h
    split at h
    · cases h
    · next hh =>
      split_ifs at h with hk
      cases h
      exact .fail hh hk.1 hk.2

/-- The legal frames that `Send` was called with. -/
def called (ls : List Label) : List Bytes := ls.filterMap fun
  | .call f => if Legal f then some f else none
  | _ => none

/-- The bytes on the wire of the frame that is being sent. -/
def underway : Option (Bytes × Phase) → Bytes
  | some (f, .body) => be32 f.length
  | _ => []

/-- The beginning of a frame that is not all of it. -/
def Cut (part : Bytes) : Prop := ∃ f, Legal f ∧ ∃ k < (encode f).length, part = (encode f).take k

theorem cut_underway {h : Option (Bytes × Phase)} (hl : ∀ f ∈ h.map Prod.fst, Legal f) :
    Cut (underway h) := by
  match h with
  | none => exact ⟨[0], by decide, 0, by decide, rfl⟩
  | some (f, .header) => exact ⟨[0], by decide, 0, by decide, rfl⟩
  | some (f, .body) =>
    have hf : Legal f := hl f rfl
    have hpos := hf.1
    refine ⟨f, hf, 4, ?_, (List.take_left' (length_be32 _)).symm⟩
    rw [length_encode]
    omega

/-- A failed write leaves the beginning of the frame. -/
theorem cut_fail {h : Bytes × Phase} {k : ℕ} (hf : Legal h.1) (hk : k < (piece h).length) :
    Cut (underway (some h) ++ (piece h).take k) := by
  match h with
  | (f, .header) =>
    have hk' : k ≤ (be32 f.length).length := Nat.le_of_lt hk
    refine ⟨f, hf, k, ?_, ?_⟩
    · rw [length_encode]
      exact Nat.lt_of_lt_of_le hk (Nat.le_add_right _ _)
    · rw [encode, List.take_append_of_le_length hk']
      rfl
  | (f, .body) =>
    refine ⟨f, hf, 4 + k, ?_, ?_⟩
    · rw [length_encode]
      exact Nat.add_lt_add_left hk 4
    · have hhdr : (be32 f.length).take (4 + k) = be32 f.length :=
        List.take_of_length_le (Nat.le_add_right 4 k)
      rw [encode, List.take_append, hhdr, length_be32, Nat.add_sub_cancel_left]
      rfl

/-- The wire holds the frames that were sent, one after the other, and possibly the beginning of one
more. -/
structure Inv (greeting : Bytes) (x : Sender) (sent : List Bytes) : Prop where
  legal : ∀ f ∈ x.waiting ++ x.locked, Legal f
  sent_locked : sent <+: x.locked
  held : ∀ f ∈ x.holder.map Prod.fst, f ∈ x.locked
  wire : ∃ part, x.wire = greeting ++ encodeAll sent ++ part ∧ Cut part
  intact : x.broken = false →
    x.wire = greeting ++ encodeAll sent ++ underway x.holder ∧
    x.locked = sent ++ (x.holder.map Prod.fst).toList

variable {greeting : Bytes} {x x' : Sender} {l : Label}

theorem Inv.start (greeting : Bytes) : Inv greeting (.start greeting) [] where
  legal := fun f hf => nomatch hf
  sent_locked := List.nil_prefix
  held := fun f hf => nomatch hf
  wire := ⟨[], by simp [Sender.start, encodeAll],
    cut_underway (h := none) fun f hf => nomatch hf⟩
  intact := fun _ => by simp [Sender.start, encodeAll, underway]

theorem Inv.legal_held {sent : List Bytes} (hi : Inv greeting x sent) :
    ∀ f ∈ x.holder.map Prod.fst, Legal f :=
  fun f hf => hi.legal f (List.mem_append_right _ (hi.held f hf))

/-- One step of a `Send`. -/
theorem Step.inv (hst : Step x l x') (hi : Inv greeting x x.sent) : Inv greeting x' x'.sent := by
  cases hst with
  | refuse =>
    rw [sent, successes_error]
    exact ⟨hi.legal, hi.sent_locked, hi.held, hi.wire, hi.intact⟩
  | @call f hf =>
    refine ⟨fun g hg => ?_, hi.sent_locked, hi.held, hi.wire, hi.intact⟩
    simp only [List.mem_append, List.mem_singleton] at hg
    obtain (hw | rfl) | hl := hg
    · exact hi.legal g (List.mem_append_left _ hw)
    · exact hf
    · exact hi.legal g (List.mem_append_right _ hl)
  | @lock i f hn hw =>
    have hmem := List.mem_of_getElem? hw
    refine ⟨fun g hg => ?_, hi.sent_locked.trans (List.prefix_append _ _), fun g hg => ?_, hi.wire,
      fun hb => ?_⟩
    · simp only [List.mem_append, List.mem_singleton] at hg
      obtain hw' | hl | rfl := hg
      · exact hi.legal g (List.mem_append_left _ (List.mem_of_mem_eraseIdx hw'))
      · exact hi.legal g (List.mem_append_right _ hl)
      · exact hi.legal g (List.mem_append_left _ hmem)
    · obtain rfl := Option.mem_some_iff.1 hg
      exact List.mem_append_right _ (List.mem_singleton_self _)
    · obtain ⟨hwire, hlocked⟩ := hi.intact hb
      rw [hn] at hwire hlocked
      exact ⟨hwire, congrArg (· ++ [f]) (hlocked.trans (List.append_nil _))⟩
  | @header f hh hb =>
    obtain ⟨hwire, hlocked⟩ := hi.intact hb
    have hheld := hi.held
    have hlegal := hi.legal_held
    rw [hh] at hwire hlocked hheld hlegal
    have hwire' : x.wire ++ be32 f.length = greeting ++ encodeAll x.sent ++ be32 f.length := by
      rw [hwire]
      exact congrArg (· ++ be32 f.length) (List.append_nil _)
    exact ⟨hi.legal, hi.sent_locked, hheld,
      ⟨_, hwire', cut_underway (h := some (f, .body)) hlegal⟩, fun _ => ⟨hwire', hlocked⟩⟩
  | @body f hh hb =>
    obtain ⟨hwire, hlocked⟩ := hi.intact hb
    rw [hh] at hwire hlocked
    -- The second write completes the frame.
    have hwire' : x.wire ++ f = greeting ++ encodeAll (x.sent ++ [f]) ++ [] := by
      rw [hwire, encodeAll_append, encodeAll_singleton, encode]
      simp [underway]
    rw [sent, successes_ok]
    refine ⟨hi.legal, ?_, fun g hg => (nomatch hg),
      ⟨[], hwire', cut_underway (h := none) fun g hg => (nomatch hg)⟩, fun _ => ⟨hwire', ?_⟩⟩
    · exact hlocked ▸ List.prefix_rfl
    · exact hlocked.trans (List.append_nil _).symm
  | @fail k h hh hk hb =>
    rw [sent, successes_error]
    refine ⟨hi.legal, hi.sent_locked, fun g hg => (nomatch hg), ?_, fun hb' => (nomatch hb')⟩
    cases hbroken : x.broken with
    | true =>
      obtain ⟨part, hwire, hcut⟩ := hi.wire
      refine ⟨part, ?_, hcut⟩
      rw [hb hbroken, List.take_zero, List.append_nil]
      exact hwire
    | false =>
      have hlegal := hi.legal_held
      rw [hh] at hlegal
      refine ⟨_, ?_, cut_fail (hlegal h.1 rfl) hk⟩
      rw [(hi.intact hbroken).1, hh, List.append_assoc]
      rfl

theorem inv_of_run {ls : List Label} (hrun : lts.Run (.start greeting) ls x) :
    Inv greeting x x.sent :=
  hrun.reachable.invariant (I := fun x => Inv greeting x x.sent) (.start greeting)
    fun _ _ _ hi hst => (step_cases hst).inv hi

/-- Every legal frame that `Send` was called with waits for the lock or has acquired it, once. -/
theorem perm_called {ls : List Label} (hrun : lts.Run (.start greeting) ls x) :
    (x.locked ++ x.waiting).Perm (called ls) := by
  induction hrun with
  | nil => exact .nil
  | @snoc ls x x' l _ hst ih =>
    have hcalled : called (ls ++ [l]) = called ls ++ called [l] := List.filterMap_append
    rw [hcalled]
    cases step_cases hst with
    | @refuse f hf =>
      have hno : called [.call f] = [] := by simp [called, hf]
      rw [hno, List.append_nil]
      exact ih
    | @call f hf =>
      have hyes : called [.call f] = [f] := by simp [called, hf]
      rw [hyes, ← List.append_assoc]
      exact ih.append_right [f]
    | @lock i f _ hw =>
      obtain ⟨hi, hget⟩ := List.getElem?_eq_some_iff.1 hw
      have herase := List.getElem_cons_eraseIdx_perm hi
      rw [hget] at herase
      have hno : called [.lock i] = [] := rfl
      rw [hno, List.append_nil, List.append_assoc]
      exact (herase.append_left x.locked).trans ih
    | header => exact (List.append_nil (called ls)).symm ▸ ih
    | body => exact (List.append_nil (called ls)).symm ▸ ih
    | fail => exact (List.append_nil (called ls)).symm ▸ ih

/-- No `Send` is at work and none has failed. -/
def Idle (x : Sender) : Prop := x.holder = none ∧ x.broken = false

end Sender

/-! ### From the sender to the receiver -/

/-- At the end of the stream, `Receive` returns its error. -/
theorem receive_nil (h : r.Holds [] e) : (receive r).1 = .error (.read e) := by
  obtain ⟨r', hr'⟩ := Bufio.Reader.readFull_short (m := 4) h (by decide)
  rw [receive, hr', Bufio.Reader.short_nil]

/-- In the beginning of a frame, `Receive` runs into the end of the stream. -/
theorem receive_cut (h : r.Holds b e) (hb : Sender.Cut b) :
    ∃ e', (receive r).1 = .error (.read e') := by
  obtain ⟨f, hf, k, hk, rfl⟩ := hb
  rw [length_encode] at hk
  by_cases hhdr : k < 4
  · have hlen : ((encode f).take k).length < 4 := by
      rw [List.length_take, length_encode]
      omega
    obtain ⟨r', hr'⟩ := Bufio.Reader.readFull_short h hlen
    exact ⟨_, by rw [receive, hr']⟩
  · -- The length has arrived, but not the whole frame.
    have hsplit : (encode f).take k = be32 f.length ++ f.take (k - 4) := by
      rw [encode, List.take_append, length_be32,
        List.take_of_length_le (by rw [length_be32]; omega)]
    rw [hsplit] at h
    obtain ⟨r₁, hr₁, hrest⟩ := Bufio.Reader.readFull_append h (length_be32 _)
    have hlen : (f.take (k - 4)).length < f.length := by
      rw [List.length_take]
      omega
    obtain ⟨r₂, hr₂⟩ := Bufio.Reader.readFull_short hrest hlen
    have hlegal : ¬ (f.length = 0 ∨ maxFrame < f.length) := fun hor =>
      hor.elim hf.1 (Nat.not_lt.2 hf.2)
    refine ⟨Bufio.Reader.short (f.take (k - 4)) e, ?_⟩
    rw [receive, hr₁]
    dsimp only
    rw [hf.beVal_be32, if_neg hlegal, hr₂]

/-- **What is received are the frames of the `Send`s that returned without an error**, in the order
in which they acquired the lock, and then an error of the connection; also while a frame is being
written and after a write has failed. -/
theorem receiveAll_sent {greeting : Bytes} {x : Sender} {ls : List Sender.Label}
    (hrun : Sender.lts.Run (.start greeting) ls x)
    (h : r.Holds (x.wire.drop greeting.length) e) :
    (∃ e', receiveAll r = (x.sent, .read e')) ∧ x.sent <+: x.locked ∧
      (x.Idle → receiveAll r = (x.locked, .read e)) := by
  have hi := Sender.inv_of_run hrun
  have hlegal : ∀ f ∈ x.sent, Legal f := fun f hf =>
    hi.legal f (List.mem_append_right _ (hi.sent_locked.subset hf))
  refine ⟨?_, hi.sent_locked, fun hidle => ?_⟩
  · obtain ⟨part, hwire, hcut⟩ := hi.wire
    rw [hwire, List.append_assoc, List.drop_left' rfl] at h
    obtain ⟨r', hr', hall⟩ := receiveAll_encodeAll h hlegal
    obtain ⟨e', he'⟩ := receive_cut hr' hcut
    exact ⟨e', by rw [hall, receiveAll_error he', List.append_nil]⟩
  · obtain ⟨hwire, hlocked⟩ := hi.intact hidle.2
    rw [hidle.1] at hwire hlocked
    rw [hwire, List.append_assoc, List.drop_left' rfl] at h
    obtain ⟨r', hr', hall⟩ := receiveAll_encodeAll h hlegal
    rw [hall, receiveAll_error (receive_nil hr'), hlocked]
    rfl

end Framed

/-! ### The TLS listener -/

namespace Tlsx

open Framed

/-- `tunnelMagic`, "NVPN". -/
def tunnelMagic : Bytes := [0x4e, 0x56, 0x50, 0x4e]

/-- `NegotiatedProtocol`, as `handleConn` distinguishes it. -/
inductive Alpn where
  /-- `alpnTunnel`. -/
  | tunnel
  /-- `alpnHTTP`, or none. -/
  | http
  deriving DecidableEq, Repr

/-- What becomes of a connection. -/
inductive Route where
  /-- It is a tunnel, and its frames are received from the reader. -/
  | tunnel (r : Bufio.Reader)
  /-- It is answered like a browser's. -/
  | fakeHTTP (r : Bufio.Reader)
  /-- It is closed. -/
  | closed

/-- `acceptTunnel`, with the callback that `SetOnConn` has installed. -/
def acceptTunnel (onConn : Option (Bufio.Reader → Bool)) (r : Bufio.Reader) : Route :=
  match onConn with
  | none => .closed
  | some fn => if fn r then .tunnel r else .closed

/-- `handleConn`; `negotiated` is `none` when the handshake fails. -/
def handleConn (onConn : Option (Bufio.Reader → Bool)) (negotiated : Option Alpn)
    (r : Bufio.Reader) : Route :=
  match negotiated with
  | none => .closed
  | some .tunnel => acceptTunnel onConn r
  | some .http =>
    match r.readFull tunnelMagic.length with
    | (.error _, _) => .closed
    | (.ok magic, r') => if magic = tunnelMagic then acceptTunnel onConn r' else .fakeHTTP r'

/-- No length of a frame looks like the magic. -/
theorem be32_ne_tunnelMagic {n : ℕ} (hn : n ≤ maxFrame) : be32 n ≠ tunnelMagic := by
  intro h
  have hval := congrArg beVal h
  have hmagic : beVal tunnelMagic = 0x4e56504e := by decide
  have hmax : maxFrame < 0x4e56504e := by decide
  rw [beVal_be32, hmagic] at hval
  omega

/-- The stream of a browser-mode client goes to the tunnel without its magic. -/
theorem handleConn_magic {r : Bufio.Reader} {b : Bytes} {e : ReadErr}
    (h : r.Holds (tunnelMagic ++ b) e) (onConn : Option (Bufio.Reader → Bool)) :
    ∃ r', handleConn onConn (some .http) r = acceptTunnel onConn r' ∧ r'.Holds b e := by
  obtain ⟨r', hr', hb⟩ := Bufio.Reader.readFull_append h rfl
  refine ⟨r', ?_, hb⟩
  rw [handleConn, hr']
  exact if_pos rfl

end Tlsx

namespace Framed

open Tlsx

/-- **Frames cross a byte stream unchanged.**

In every interleaving of calls of `Send`, when none of them is at work and no write has failed,
`Receive` on the other side yields the frames in the order in which their `Send`s acquired the lock
and then the end of the stream, however the stream arrives; every legal frame that `Send` was called
with has acquired the lock once or still waits for it.  On any stream at all, the frames received
are the complete frames of a legal length that it starts with.  Both hold for the stream of a
browser-mode client behind its magic, which no legal length equals. -/
theorem framed_stream :
    (∀ {ls : List Sender.Label} {x : Sender} {src : Source},
      Sender.lts.Run (.start []) ls x → x.Idle → src.content = x.wire → src.last = .eof →
      receiveAll (.new src) = (x.locked, .read .eof) ∧
        (x.locked ++ x.waiting).Perm (Sender.called ls)) ∧
    (∀ (src : Source) (fs : List Bytes), (receiveAll (.new src)).1 = fs ↔
      (∀ f ∈ fs, Legal f) ∧ ∃ rest, src.content = encodeAll fs ++ rest ∧ NoFrame rest) ∧
    (∀ {ls : List Sender.Label} {x : Sender} {src : Source}
        (onConn : Option (Bufio.Reader → Bool)),
      Sender.lts.Run (.start tunnelMagic) ls x → x.Idle → src.content = x.wire →
      src.last = .eof →
      ∃ r, handleConn onConn (some .http) (.new src) = acceptTunnel onConn r ∧
        receiveAll r = (x.locked, .read .eof) ∧
        (x.locked ++ x.waiting).Perm (Sender.called ls)) ∧
    (∀ (src : Source) (b : Bytes) (onConn : Option (Bufio.Reader → Bool)),
      src.content = tunnelMagic ++ b →
      ∃ r, handleConn onConn (some .http) (.new src) = acceptTunnel onConn r ∧
        ∀ fs : List Bytes, (receiveAll r).1 = fs ↔
          (∀ f ∈ fs, Legal f) ∧ ∃ rest, b = encodeAll fs ++ rest ∧ NoFrame rest) ∧
    ∀ f, Legal f → be32 f.length ≠ tunnelMagic := by
  refine ⟨?_, fun src fs => receiveAll_eq_iff (.new src), ?_, fun src b onConn hsrc => ?_,
    fun f hf => be32_ne_tunnelMagic hf.2⟩
  · intro ls x src hrun hidle hsrc hlast
    have hholds : (Bufio.Reader.new src).Holds x.wire .eof := hsrc ▸ hlast ▸ .new src
    exact ⟨(receiveAll_sent hrun hholds).2.2 hidle, Sender.perm_called hrun⟩
  · intro ls x src onConn hrun hidle hsrc hlast
    have hholds : (Bufio.Reader.new src).Holds x.wire .eof := hsrc ▸ hlast ▸ .new src
    have hwire : x.wire = tunnelMagic ++ x.wire.drop tunnelMagic.length := by
      obtain ⟨part, hwire, -⟩ := (Sender.inv_of_run hrun).wire
      rw [hwire, List.append_assoc, List.drop_left' rfl]
    rw [hwire] at hholds
    obtain ⟨r, hroute, hr⟩ := handleConn_magic hholds onConn
    exact ⟨r, hroute, (receiveAll_sent hrun hr).2.2 hidle, Sender.perm_called hrun⟩
  · have hholds : (Bufio.Reader.new src).Holds (tunnelMagic ++ b) src.last := hsrc ▸ .new src
    obtain ⟨r, hroute, hr⟩ := handleConn_magic hholds onConn
    exact ⟨r, hroute, fun fs => receiveAll_eq_iff hr⟩

/-- The bytes of a browser-mode client's two frames, cut inside the magic and inside a length. -/
def twoFrames : Source where
  pieces := [[0x4e, 0x56], [], [0x50, 0x4e, 0, 0], [0, 1, 3, 0, 0, 0], [2, 1, 2]]
  last := .eof
  early := true

/-- Two calls of `Send`, of which the second acquires the lock first. -/
theorem framed_stream_two : ∃ x r,
    Sender.lts.Run (.start tunnelMagic)
      [.call [1, 2], .call [3], .lock 1, .write, .write, .lock 0, .write, .write] x ∧
    twoFrames.content = x.wire ∧
    handleConn (some fun _ => true) (some .http) (.new twoFrames) = .tunnel r ∧
    receiveAll r = ([[3], [1, 2]], .read .eof) := by
  obtain ⟨x, hrun, hp⟩ := LTS.exists_run_of_any (f := Sender.step) (.start tunnelMagic)
    [.call [1, 2], .call [3], .lock 1, .write, .write, .lock 0, .write, .write]
    (fun x => x.holder == none && x.broken == false && x.locked == [[3], [1, 2]] &&
      x.wire == twoFrames.content) (by decide)
  simp only [Bool.and_eq_true, beq_iff_eq] at hp
  obtain ⟨⟨⟨hn, hb⟩, hlocked⟩, hwire⟩ := hp
  obtain ⟨r, hroute, hall, -⟩ :=
    framed_stream.2.2.1 (some fun _ => true) hrun ⟨hn, hb⟩ hwire.symm rfl
  exact ⟨x, r, hrun, hwire.symm, hroute, hlocked ▸ hall⟩

end Framed

end VibeVpn
