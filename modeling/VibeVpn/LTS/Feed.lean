import VibeVpn.LTS.Basic

/-!
# A loop that is fed through a bounded channel

A *reader* receives from a source that may fail, and passes on what it receives through a channel
with `cap` places to a *loop*, a transition system of its own.  A failure of the source ends the
reader; whether it tries to report it (`reports`) depends on the reader, and it does so without
waiting, so that a full channel loses the report.

* `Consumer` : a loop, and how it uses the channel.
* `Feed.lts` : reader and loop in every interleaving, step by step.
* `Feed.Lost` : the source has failed, the reader is gone, nothing is left in the channel, and the
  loop does not know.
* `Feed.not_lost` : **a failure that is reported into a channel with room is not lost**.
* `Feed.lost_of_silent` : a reader that does not report loses every failure that comes before the
  loop gives the source up.

A loop may begin again with a new source, a new reader and a new channel (`Consumer.renews`); the
states describe the newest ones.
-/

namespace VibeVpn

variable {σ L α : Type}

/-- Where a reader is. -/
inductive Reader (α : Type) where
  /-- It waits for the source. -/
  | receiving
  /-- It waits for a place in the channel. -/
  | offering (a : α)
  /-- It has ended, or there never was one. -/
  | exited
  deriving DecidableEq, Repr

/-- A loop that takes results from a channel: `none` is the report of a failure. -/
structure Consumer (σ L α : Type) where
  /-- The loop. -/
  sys : LTS σ L
  /-- The result that an event takes from the channel, if it takes one. -/
  takes : L → Option (Option α)
  /-- The loop waits for the channel. -/
  waits : σ → Bool
  /-- The event begins with a new source. -/
  renews : σ → L → Bool
  /-- The loop has given the source up. -/
  gone : σ → Bool
  /-- A reader that waits for a place may give up. -/
  closed : σ → Bool

/-- A loop with its reader and its channel. -/
structure Feed (σ α : Type) where
  /-- The state of the loop. -/
  loop : σ
  /-- The reader. -/
  reader : Reader α
  /-- The channel, the oldest result first. -/
  chan : List (Option α)
  /-- The source has failed. -/
  failed : Bool
  /-- The loop has taken the report of a failure. -/
  told : Bool
  /-- The loop has given the source up, at some time. -/
  left : Bool

namespace Feed

/-- A new source. -/
def start (C : Consumer σ L α) (s : σ) : Feed σ α where
  loop := s
  reader := .receiving
  chan := []
  failed := false
  told := false
  left := C.gone s

/-- Before the first source. -/
def idle (s : σ) : Feed σ α where
  loop := s
  reader := .exited
  chan := []
  failed := false
  told := false
  left := true

/-- The source fails. -/
def fail (cap : ℕ) (reports : Bool) (x : Feed σ α) : Feed σ α :=
  { x with
    reader := .exited
    chan := if reports ∧ x.chan.length < cap then x.chan ++ [none] else x.chan
    failed := true }

/-- What happens in one step. -/
inductive Act (L α : Type) where
  /-- The source returns something, or fails. -/
  | receive (r : Option α)
  /-- The channel takes what the reader holds. -/
  | offer
  /-- The reader gives up. -/
  | quit
  /-- The loop handles an event. -/
  | event (l : L)

variable (C : Consumer σ L α) (cap : ℕ) (reports : Bool)

/-- The steps of the reader and of the loop. -/
inductive Step : Feed σ α → Act L α → Feed σ α → Prop where
  | receive {x : Feed σ α} {a : α} : x.reader = .receiving →
      Step x (.receive (some a)) { x with reader := .offering a }
  | fail {x : Feed σ α} : x.reader = .receiving → Step x (.receive none) (x.fail cap reports)
  | offer {x : Feed σ α} {a : α} : x.reader = .offering a → x.chan.length < cap →
      Step x .offer { x with reader := .receiving, chan := x.chan ++ [some a] }
  | quit {x : Feed σ α} {a : α} : x.reader = .offering a → C.closed x.loop = true →
      Step x .quit { x with reader := .exited }
  | take {x : Feed σ α} {l : L} {r : Option α} {rest : List (Option α)} {s : σ} :
      C.takes l = some r → C.waits x.loop = true → x.chan = r :: rest → C.sys.step x.loop l s →
      Step x (.event l)
        { x with loop := s, chan := rest, told := x.told || r.isNone, left := x.left || C.gone s }
  | renew {x : Feed σ α} {l : L} {s : σ} :
      C.takes l = none → C.renews x.loop l = true → C.sys.step x.loop l s →
      Step x (.event l) (start C s)
  | other {x : Feed σ α} {l : L} {s : σ} :
      C.takes l = none → C.renews x.loop l = false → C.sys.step x.loop l s →
      Step x (.event l) { x with loop := s, left := x.left || C.gone s }

/-- Reader and loop in every interleaving. -/
def lts : LTS (Feed σ α) (Act L α) where
  step := Step C cap reports

/-- The loop does not know of a failure, and will not learn of it. -/
def Lost (x : Feed σ α) : Prop :=
  x.failed = true ∧ x.reader = .exited ∧ x.chan = [] ∧ x.told = false ∧ x.left = false

/-- A failure comes when it is reported and the channel has room, or when the loop has given the
source up. -/
def Heard (x : Feed σ α) (l : Act L α) : Prop :=
  match l with
  | .receive none => (reports = true ∧ x.chan.length < cap) ∨ x.left = true
  | _ => True

variable {C cap reports} {x y : Feed σ α} {l : Act L α}

/-- A failure is on its way to the loop, or the loop knows. -/
def Noticed (x : Feed σ α) : Prop :=
  x.failed = true → none ∈ x.chan ∨ x.told = true ∨ x.left = true

theorem Noticed.not_lost (h : x.Noticed) : ¬ x.Lost := by
  rintro ⟨hf, -, hc, ht, hl⟩
  obtain hmem | htold | hleft := h hf
  · simp [hc] at hmem
  · simp [htold] at ht
  · simp [hleft] at hl

/-- A heard failure is noticed, and stays so until the loop has a new source. -/
theorem Step.noticed (h : Step C cap reports x l y) (hG : Heard cap reports x l)
    (hi : x.Noticed) : y.Noticed := by
  cases h with
  | receive _ => exact hi
  | fail _ =>
    intro _
    obtain hroom | hleft := hG
    · exact .inl (by simp [Feed.fail, hroom])
    · exact .inr (.inr hleft)
  | offer _ _ => exact fun hf => (hi hf).imp_left fun hmem => List.mem_append_left _ hmem
  | quit _ _ => exact hi
  | @take _ r rest s _ _ hc _ =>
    intro hf
    -- the report may be the result that is taken now
    obtain hmem | htold | hleft := hi hf
    · rw [hc, List.mem_cons] at hmem
      obtain rfl | hmem := hmem
      · exact .inr (.inl (by simp))
      · exact .inl hmem
    · exact .inr (.inl (by simp [htold]))
    · exact .inr (.inr (by simp [hleft]))
  | renew _ _ _ =>
    intro hf
    cases hf
  | other _ _ _ => exact fun hf => (hi hf).imp_right (.imp_right fun hleft => by simp [hleft])

/-- **A failure that is heard is not lost**, whatever the schedule. -/
theorem not_lost {x₀ : Feed σ α} (h₀ : x₀.failed = false) {ls : List (Act L α)}
    (run : ((lts C cap reports).restrict (Heard cap reports)).Run x₀ ls x) : ¬ x.Lost := by
  refine Noticed.not_lost (run.reachable.invariant ?_ fun s l s' hi hst => hst.2.noticed hst.1 hi)
  intro hf
  rw [h₀] at hf
  cases hf

/-! ### A reader that does not report -/

/-- The loop was told of no failure and will not be, and a failure has ended the reader. -/
structure Untold (x : Feed σ α) : Prop where
  chan : none ∉ x.chan
  told : x.told = false
  exited : x.failed = true → x.reader = .exited

theorem untold_start (C : Consumer σ L α) (s : σ) : (start C s).Untold := ⟨nofun, rfl, nofun⟩

theorem Step.untold (h : Step C cap false x l y) (hi : x.Untold) : y.Untold := by
  -- a reader that is at work has not seen a failure
  have hno : x.reader ≠ .exited → ∀ {P : Prop}, x.failed = true → P :=
    fun hr _ hf => absurd (hi.exited hf) hr
  cases h with
  | receive hr => exact ⟨hi.chan, hi.told, hno (by rw [hr]; nofun)⟩
  | fail => exact ⟨by simpa [Feed.fail] using hi.chan, hi.told, fun _ => rfl⟩
  | offer hr => exact ⟨by simpa using hi.chan, hi.told, hno (by rw [hr]; nofun)⟩
  | quit => exact ⟨hi.chan, hi.told, fun _ => rfl⟩
  | @take _ r rest s _ _ hc _ =>
    have hchan := hi.chan
    rw [hc, List.mem_cons, not_or] at hchan
    refine ⟨hchan.2, ?_, hi.exited⟩
    cases r with
    | none => exact absurd rfl hchan.1
    | some a => simp [hi.told]
  | renew => exact untold_start C _
  | other => exact ⟨hi.chan, hi.told, hi.exited⟩

/-- **A failure that is not reported is lost** unless the loop gives the source up: the loop is
never told, and with the channel drained it waits in vain. -/
theorem lost_of_silent {x₀ : Feed σ α} (h₀ : x₀.Untold) {ls : List (Act L α)}
    (run : (lts C cap false).Run x₀ ls x) :
    x.told = false ∧ (x.failed = true → x.left = false → x.chan = [] → x.Lost) := by
  have hi : x.Untold := run.reachable.invariant h₀ fun _ _ _ hi hst => Step.untold hst hi
  exact ⟨hi.told, fun hf hl hc => ⟨hf, hi.exited hf, hc, hi.told, hl⟩⟩

/-! ### Filling and draining the channel -/

/-- The reader passes a result on. -/
theorem run_offer (a : α) (hr : x.reader = .receiving) (hroom : x.chan.length < cap) :
    (lts C cap reports).Run x [.receive (some a), .offer]
      { x with chan := x.chan ++ [some a] } := by
  obtain ⟨loop, reader, chan, failed, told, left⟩ := x
  cases hr
  have h₁ : Step C cap reports ⟨loop, .receiving, chan, failed, told, left⟩ (.receive (some a))
      ⟨loop, .offering a, chan, failed, told, left⟩ := .receive rfl
  have h₂ : Step C cap reports ⟨loop, .offering a, chan, failed, told, left⟩ .offer
      ⟨loop, .receiving, chan ++ [some a], failed, told, left⟩ := .offer rfl hroom
  exact (LTS.Run.nil.snoc h₁).snoc h₂

/-- The loop handles a result the source has just returned. -/
theorem run_take {l : L} {a : α} {s : σ} (hr : x.reader = .receiving) (hc : x.chan = [])
    (hcap : 0 < cap) (ht : C.takes l = some (some a)) (hw : C.waits x.loop = true)
    (hs : C.sys.step x.loop l s) :
    (lts C cap reports).Run x [.receive (some a), .offer, .event l]
      { x with loop := s, left := x.left || C.gone s } := by
  obtain ⟨loop, reader, chan, failed, told, left⟩ := x
  cases hc
  have h : Step C cap reports ⟨loop, reader, [some a], failed, told, left⟩ (.event l)
      ⟨s, reader, [], failed, told || (some a).isNone, left || C.gone s⟩ := .take ht hw rfl hs
  rw [Option.isNone_some, Bool.or_false] at h
  exact (run_offer a hr hcap).snoc h

/-- The reader fills the channel while the loop does nothing. -/
theorem exists_fill (a : α) (n : ℕ) (hr : x.reader = .receiving) (hn : x.chan.length + n ≤ cap) :
    ∃ ls, (lts C cap reports).Run x ls { x with chan := x.chan ++ List.replicate n (some a) } := by
  induction n with
  | zero => exact ⟨[], by simpa using LTS.Run.nil⟩
  | succ n ih =>
    obtain ⟨ls, run⟩ := ih (by omega)
    have hroom : (x.chan ++ List.replicate n (some a)).length < cap := by simp; omega
    rw [List.replicate_succ', ← List.append_assoc]
    exact ⟨_, run.append (run_offer a hr hroom)⟩

/-- The loop drains the channel after the reader is gone. -/
theorem exists_drain {J : σ → Prop} {a : α}
    (hJ : ∀ s, J s → ∃ l s', C.takes l = some (some a) ∧ C.waits s = true ∧ C.sys.step s l s' ∧
      C.gone s' = false ∧ J s') (n : ℕ) (hs : J x.loop)
    (hc : x.chan = List.replicate n (some a)) :
    ∃ ls s, (lts C cap reports).Run x ls { x with loop := s, chan := [] } ∧ J s := by
  induction n generalizing x with
  | zero => exact ⟨[], x.loop, by rw [← show x.chan = [] from hc]; exact .nil, hs⟩
  | succ n ih =>
    obtain ⟨l, s, ht, hw, hst, hg, hs'⟩ := hJ _ hs
    have h : Step C cap reports x (.event l)
        { x with loop := s, chan := List.replicate n (some a) } := by
      simpa [hg] using Step.take ht hw hc hst
    obtain ⟨ls, s', run, hJs'⟩ := ih (x := { x with loop := s, chan := List.replicate n (some a) })
      hs' rfl
    exact ⟨_, s', (LTS.Run.nil.snoc h).append run, hJs'⟩

/-- **A failure that finds the channel full is lost**, once the loop has drained the channel. -/
theorem exists_lost {J : σ → Prop} {s : σ} (a : α)
    (hJ : ∀ s, J s → ∃ l s', C.takes l = some (some a) ∧ C.waits s = true ∧ C.sys.step s l s' ∧
      C.gone s' = false ∧ J s') (hs : J s) (hg : C.gone s = false) :
    ∃ ls y, (lts C cap reports).Run (start C s) ls y ∧ J y.loop ∧ y.Lost := by
  obtain ⟨ls₁, fill⟩ : ∃ ls, (lts C cap reports).Run (start C s) ls
      { start C s with chan := [] ++ List.replicate cap (some a) } :=
    exists_fill a cap rfl (Nat.le_of_eq (Nat.zero_add cap))
  rw [List.nil_append] at fill
  have hfail : fail cap reports { start C s with chan := List.replicate cap (some a) } =
      { start C s with
        chan := List.replicate cap (some a), reader := .exited, failed := true } := by
    simp [fail]
  have h : Step C cap reports { start C s with chan := List.replicate cap (some a) } (.receive none)
      { start C s with chan := List.replicate cap (some a), reader := .exited, failed := true } :=
    hfail ▸ .fail rfl
  obtain ⟨ls₂, s', drain, hs'⟩ : ∃ ls s', (lts C cap reports).Run
      { start C s with chan := List.replicate cap (some a), reader := .exited, failed := true } ls
      { start C s with loop := s', chan := [], reader := .exited, failed := true } ∧ J s' :=
    exists_drain hJ cap hs rfl
  exact ⟨_, _, (fill.snoc h).append drain, hs', rfl, rfl, rfl, rfl, hg⟩

end Feed

end VibeVpn
