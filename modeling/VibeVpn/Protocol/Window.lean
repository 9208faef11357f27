import VibeVpn.Protocol.Replay
import Mathlib.Data.List.Nodup

/-!
# What the replay window accepts

The abstract meaning of a replay window of `W` numbers, as a function of the numbers that arrived
and of nothing else.  `Fresh W ds s` says when `s` is accepted after the numbers `ds` (oldest
first), and `Accepts W ds acc` that `acc` are the accepted ones among `ds`.

* `Tracks.check` and `Tracks.offerAll` : the bitmap window refines this model, over every history;
* `fresh_and_stale` : **the window drops no fresh number and every stale one**, in terms of the
  numbers that were added;
* `Accepts.nodup_iff` : **a number is accepted twice exactly when it arrives again after a jump**
  (`Replay`): it was at least `W` above everything before it, and is back while still less than
  `W` below the highest number.
-/

namespace VibeVpn

/-- The highest number that arrived. -/
def top (ds : List ℕ) : ℕ := ds.foldr max 0

/-- `s` lies at least a whole window above everything in `ds`. -/
def Jump (W : ℕ) (ds : List ℕ) (s : ℕ) : Prop := ds ≠ [] ∧ top ds + W ≤ s

/-- `s` occurs in `ds` otherwise than as a jump. -/
def Seen (W : ℕ) (ds : List ℕ) (s : ℕ) : Prop :=
  ∃ pre post, ds = pre ++ s :: post ∧ ¬ Jump W pre s

/-- `s` is accepted after `ds`: it is the first number, or higher than all before it, or in the
window and seen so far only as a jump. -/
def Fresh (W : ℕ) (ds : List ℕ) (s : ℕ) : Prop :=
  ds = [] ∨ top ds < s ∨ (top ds < s + W ∧ ∀ pre post, ds = pre ++ s :: post → Jump W pre s)

/-- `s` arrived as a jump before, and is still in the window. -/
def Replay (W : ℕ) (ds : List ℕ) (s : ℕ) : Prop :=
  top ds < s + W ∧ ∃ pre post, ds = pre ++ s :: post ∧ Jump W pre s

/-- Some number of `ds` arrived again after a jump. -/
def HasReplay (W : ℕ) (ds : List ℕ) : Prop :=
  ∃ pre s post, ds = pre ++ s :: post ∧ Replay W pre s

/-- `acc` are the accepted numbers among the arrivals `ds`, both oldest first. -/
inductive Accepts (W : ℕ) : List ℕ → List ℕ → Prop
  | nil : Accepts W [] []
  | take {ds acc : List ℕ} {s : ℕ} :
      Accepts W ds acc → Fresh W ds s → Accepts W (ds ++ [s]) (acc ++ [s])
  | skip {ds acc : List ℕ} {s : ℕ} :
      Accepts W ds acc → ¬ Fresh W ds s → Accepts W (ds ++ [s]) acc

/-! ### The highest number -/

section Top

variable {W s t : ℕ} {ds pre post : List ℕ}

theorem le_top (h : s ∈ ds) : s ≤ top ds := by
  induction ds with
  | nil => cases h
  | cons d ds ih =>
    rcases List.mem_cons.1 h with rfl | h
    · exact Nat.le_max_left _ _
    · exact Nat.le_trans (ih h) (Nat.le_max_right _ _)

@[simp] theorem top_append (ds es : List ℕ) : top (ds ++ es) = max (top ds) (top es) := by
  induction ds with
  | nil => simp [top]
  | cons d ds ih =>
    change max d (top (ds ++ es)) = max (max d (top ds)) (top es)
    rw [ih, Nat.max_assoc]

@[simp] theorem top_singleton (s : ℕ) : top [s] = s := by simp [top]

theorem top_mem (h : ds ≠ []) : top ds ∈ ds := by
  induction ds with
  | nil => exact absurd rfl h
  | cons d ds ih =>
    change max d (top ds) ∈ d :: ds
    rcases Nat.le_total d (top ds) with hd | hd
    · rw [Nat.max_eq_right hd]
      by_cases hds : ds = []
      · subst hds; exact List.mem_cons.2 (.inl (Nat.le_zero.1 hd).symm)
      · exact List.mem_cons_of_mem _ (ih hds)
    · rw [Nat.max_eq_left hd]; exact List.mem_cons_self

theorem top_eq_of_max (h : s ∈ ds) (hmax : ∀ d ∈ ds, d ≤ s) : top ds = s :=
  Nat.le_antisymm (hmax _ (top_mem fun hds => by simp [hds] at h)) (le_top h)

theorem not_jump (hW : 0 < W) (h : s ≤ top ds) : ¬ Jump W ds s := fun ⟨_, hj⟩ => by omega

theorem Jump.not_mem (hW : 0 < W) (h : Jump W ds s) : s ∉ ds := fun hm =>
  not_jump hW (le_top hm) h

/-- The occurrences of `t` in `ds ++ [s]` are those in `ds`, and the last one when `t = s`. -/
theorem snoc_eq_iff : ds ++ [s] = pre ++ t :: post ↔
    (∃ post', post = post' ++ [s] ∧ ds = pre ++ t :: post') ∨ (post = [] ∧ ds = pre ∧ s = t) := by
  constructor
  · intro h
    rcases List.eq_nil_or_concat post with rfl | ⟨post', x, rfl⟩
    · exact .inr ⟨rfl, by simpa using h⟩
    · refine .inl ⟨post', ?_⟩
      have h' : ds ++ [s] = (pre ++ t :: post') ++ [x] := by simpa using h
      obtain ⟨h1, h2⟩ := List.append_inj' h' rfl
      simp_all
  · rintro (⟨post', rfl, rfl⟩ | ⟨rfl, rfl, rfl⟩) <;> simp

theorem Seen.le_top (h : Seen W ds s) : s ≤ top ds := by
  obtain ⟨pre, post, rfl, -⟩ := h
  exact VibeVpn.le_top (by simp)

theorem not_jump_nil : ¬ Jump W [] s := fun h => h.1 rfl

theorem seen_nil : ¬ Seen W [] s := by
  rintro ⟨pre, post, he, -⟩
  simp at he

theorem seen_snoc : Seen W (ds ++ [s]) t ↔ Seen W ds t ∨ (t = s ∧ ¬ Jump W ds s) := by
  constructor
  · rintro ⟨pre, post, he, hj⟩
    rcases snoc_eq_iff.1 he with ⟨post', -, he'⟩ | ⟨-, rfl, rfl⟩
    · exact .inl ⟨pre, post', he', hj⟩
    · exact .inr ⟨rfl, hj⟩
  · rintro (⟨pre, post, rfl, hj⟩ | ⟨rfl, hj⟩)
    · exact ⟨pre, post ++ [s], by simp, hj⟩
    · exact ⟨ds, [], rfl, hj⟩

/-- What is in the window and refused was seen before. -/
theorem seen_of_not_fresh (hf : ¬ Fresh W ds s) (hin : top ds < s + W) : Seen W ds s := by
  simp only [Fresh, not_or, not_and, not_forall] at hf
  obtain ⟨pre, post, he, hj⟩ := hf.2.2 hin
  exact ⟨pre, post, he, hj⟩

theorem hasReplay_snoc : HasReplay W (ds ++ [s]) ↔ HasReplay W ds ∨ Replay W ds s := by
  constructor
  · rintro ⟨pre, t, post, he, hr⟩
    rcases snoc_eq_iff.1 he with ⟨post', rfl, rfl⟩ | ⟨rfl, rfl, rfl⟩
    · exact .inl ⟨pre, t, post', rfl, hr⟩
    · exact .inr hr
  · rintro (⟨pre, t, post, rfl, hr⟩ | hr)
    · exact ⟨pre, t, post ++ [s], by simp, hr⟩
    · exact ⟨ds, s, [], rfl, hr⟩

end Top

/-! ### Acceptance -/

namespace Accepts

variable {W s : ℕ} {ds acc : List ℕ}

theorem mem_of_mem (h : Accepts W ds acc) (hs : s ∈ acc) : s ∈ ds := by
  induction h with
  | nil => exact hs
  | take _ _ ih =>
    rcases List.mem_append.1 hs with hs | hs
    · exact List.mem_append_left _ (ih hs)
    · exact List.mem_append_right _ hs
  | skip _ _ ih => exact List.mem_append_left _ (ih hs)

/-- A number higher than all before it has been accepted when it arrived. -/
theorem mem_of_jump (h : Accepts W ds acc) (hW : 0 < W) {pre post : List ℕ}
    (he : ds = pre ++ s :: post) (hj : Jump W pre s) : s ∈ acc := by
  induction h generalizing post with
  | nil => simp at he
  | take _ _ ih =>
    rcases snoc_eq_iff.1 he with ⟨post', -, he'⟩ | ⟨-, -, rfl⟩
    · exact List.mem_append_left _ (ih he')
    · simp
  | skip _ hf ih =>
    rcases snoc_eq_iff.1 he with ⟨post', -, he'⟩ | ⟨-, rfl, rfl⟩
    · exact ih he'
    · have := hj.2
      exact absurd (.inr (.inl (by omega))) hf

/-- As long as nothing was replayed, a number that is in is accepted again exactly when it is a
replay now. -/
theorem fresh_mem_iff (h : Accepts W ds acc) (hW : 0 < W) (hno : ¬ HasReplay W ds) :
    (Fresh W ds s ∧ s ∈ acc) ↔ Replay W ds s := by
  constructor
  · rintro ⟨hf, hs⟩
    obtain ⟨pre, post, rfl⟩ := List.append_of_mem (h.mem_of_mem hs)
    have hle := le_top (h.mem_of_mem hs)
    rcases hf with hf | hf | ⟨hlt, hall⟩
    · simp at hf
    · omega
    · exact ⟨hlt, pre, post, rfl, hall pre post rfl⟩
  · rintro ⟨hlt, pre, post, he, hj⟩
    refine ⟨.inr (.inr ⟨hlt, fun pre' post' he' => ?_⟩), h.mem_of_jump hW he hj⟩
    -- another occurrence of `s` lies either before the jump, where it cannot be,
    -- or after it, where it would be a replay already
    rw [he] at he'
    rcases List.append_eq_append_iff.1 he' with ⟨c, rfl, hc⟩ | ⟨c, rfl, hc⟩
    · cases c with
      | nil => simpa using hj
      | cons x c =>
        obtain ⟨rfl, hc⟩ : s = x ∧ post = c ++ s :: post' := by simpa using hc
        refine absurd ⟨pre ++ s :: c, s, post', by simp [he, hc], ?_, pre, c, rfl, hj⟩ hno
        have : top (pre ++ s :: c) ≤ top ds := by
          rw [he, he', top_append _ (s :: post')]
          exact Nat.le_max_left _ _
        omega
    · cases c with
      | nil => simpa using hj
      | cons x c =>
        obtain ⟨rfl, -⟩ : s = x ∧ post' = c ++ s :: post := by simpa using hc
        exact absurd (by simp) (hj.not_mem hW)

theorem nil_iff (h : Accepts W ds acc) : acc = [] ↔ ds = [] := by
  induction h with
  | nil => simp
  | take => simp
  | skip _ hf ih =>
    simp only [List.append_eq_nil_iff, List.cons_ne_self, and_false, iff_false]
    exact fun hacc => hf (.inl (ih.1 hacc))

/-- The highest number that arrived was accepted. -/
theorem top_eq (h : Accepts W ds acc) : top acc = top ds := by
  induction h with
  | nil => rfl
  | take _ _ ih => rw [top_append, top_append, ih]
  | @skip ds _ s _ hf ih =>
    have hle : s ≤ top ds := Nat.not_lt.1 fun hlt => hf (.inr (.inl hlt))
    rw [ih, top_append, top_singleton, Nat.max_eq_left hle]

/-- What is in the window and was seen has been accepted. -/
theorem mem_of_seen (h : Accepts W ds acc) (hs : Seen W ds s) (hin : top ds < s + W) :
    s ∈ acc := by
  induction h with
  | nil => exact absurd hs seen_nil
  | take _ _ ih =>
    rw [top_append] at hin
    rcases seen_snoc.1 hs with hs | ⟨rfl, -⟩
    · exact List.mem_append_left _ (ih hs (by omega))
    · simp
  | skip _ hf ih =>
    rw [top_append] at hin
    rcases seen_snoc.1 hs with hs | ⟨rfl, -⟩
    · exact ih hs (by omega)
    · -- it was refused when it arrived, so it had been seen before
      exact ih (seen_of_not_fresh hf (by omega)) (by omega)

/-- A number that was never accepted is fresh as long as it is in the window. -/
theorem fresh_of_not_mem (h : Accepts W ds acc) (hs : s ∉ acc) (hin : top ds < s + W) :
    Fresh W ds s := by
  by_contra hf
  exact hs (h.mem_of_seen (seen_of_not_fresh hf hin) hin)

/-- **Numbers are accepted at most once unless one arrives again after a jump.** -/
theorem nodup_iff (h : Accepts W ds acc) (hW : 0 < W) : acc.Nodup ↔ ¬ HasReplay W ds := by
  induction h with
  | nil => simp [HasReplay]
  | @take ds acc s h hf ih =>
    rw [hasReplay_snoc, List.nodup_append_comm, List.singleton_append, List.nodup_cons, ih, not_or]
    constructor
    · rintro ⟨hs, hno⟩
      exact ⟨hno, fun hr => hs ((h.fresh_mem_iff hW hno).2 hr).2⟩
    · rintro ⟨hno, hr⟩
      exact ⟨fun hs => hr ((h.fresh_mem_iff hW hno).1 ⟨hf, hs⟩), hno⟩
  | @skip ds acc s h hf ih =>
    rw [hasReplay_snoc, ih, not_or]
    exact ⟨fun hno => ⟨hno, fun hr => hf ((h.fresh_mem_iff hW hno).2 hr).1⟩, fun hno => hno.1⟩

end Accepts

/-! ### The bitmap window refines the model -/

/-- The window `w` has processed exactly the arrivals `ds`. -/
structure Tracks (w : ReplayWindow) (ds : List ℕ) : Prop where
  high : w.high = if ds = [] then noHigh else top ds
  clear : ds = [] → ∀ p, Bitmap.bitAt w.bits p = false
  marked : ds ≠ [] → ∀ s, w.Marked s ↔
    top ds < s + w.size ∧ Seen w.size ds s
  lt : ∀ d ∈ ds, d < noHigh

namespace Tracks

variable {w w' : ReplayWindow} {ds : List ℕ} {s : ℕ}

theorem new (size : ℕ) : Tracks (ReplayWindow.new size) [] where
  high := rfl
  clear _ p := Bitmap.bitAt_clear (ReplayWindow.new size).bits p
  marked h := absurd rfl h
  lt _ h := by cases h

theorem size_pos (w : ReplayWindow) : 0 < w.size := by
  have := w.words_pos
  unfold ReplayWindow.size; omega

theorem high_eq_noHigh_iff (h : Tracks w ds) : w.high = noHigh ↔ ds = [] := by
  rw [h.high]
  by_cases hds : ds = []
  · simp [hds]
  · have := h.lt _ (top_mem hds)
    simp only [hds, ↓reduceIte, iff_false]
    omega

theorem high_eq_top (h : Tracks w ds) (hds : ds ≠ []) : w.high = top ds := by
  rw [h.high, if_neg hds]

/-- `check` answers exactly whether the number is fresh. -/
theorem check (h : Tracks w ds) (s : ℕ) :
    w.check s = .ok true ∧ Fresh w.size ds s ∨ w.check s = .ok false ∧ ¬ Fresh w.size ds s := by
  have hiff : (w.high = noHigh ∨ w.high < s ∨ (w.high < s + w.size ∧ ¬ w.Marked s)) ↔
      Fresh w.size ds s := by
    rw [h.high_eq_noHigh_iff]
    by_cases hds : ds = []
    · simp [hds, Fresh]
    · rw [h.high_eq_top hds, h.marked hds, Fresh]
      simp only [hds, false_or]
      refine or_congr_right (and_congr_right fun hlt => ?_)
      simp only [hlt, true_and, Seen, not_exists, not_and, not_not]
  rw [ReplayWindow.check_eq]
  by_cases hf : Fresh w.size ds s
  · exact .inl ⟨by simp [hiff.2 hf], hf⟩
  · exact .inr ⟨by simpa using fun hc => hf (hiff.1 hc), hf⟩

/-- A fresh number is recorded by `add`. -/
theorem add (h : Tracks w ds) (hs : s < noHigh) (hf : Fresh w.size ds s)
    (ha : w.add s = .ok w') (hsize : w'.size = w.size) : Tracks w' (ds ++ [s]) where
  high := by
    rw [ReplayWindow.add_high ha]
    by_cases hds : ds = []
    · simp [h.high_eq_noHigh_iff, hds]
    · rw [if_neg fun hc => hds (h.high_eq_noHigh_iff.1 hc), h.high_eq_top hds]
      simp [hds]
  clear := by simp
  lt d hd := by
    rcases List.mem_append.1 hd with hd | hd
    · exact h.lt d hd
    · rw [List.mem_singleton.1 hd]; exact hs
  marked _ t := by
    have hW := size_pos w
    rw [hsize, seen_snoc, top_append, top_singleton]
    by_cases hds : ds = []
    · subst hds
      rw [ReplayWindow.marked_add_first (h.high_eq_noHigh_iff.2 rfl) (h.clear rfl) ha]
      have hz : top [] = 0 := rfl
      simp only [seen_nil, not_jump_nil, not_false_eq_true, and_true, false_or, hz]
      omega
    have h0 : w.high ≠ noHigh := fun hc => hds (h.high_eq_noHigh_iff.1 hc)
    have htop := h.high_eq_top hds
    have hm : w.Marked t ↔ top ds < t + w.size ∧ Seen w.size ds t := h.marked hds t
    have hseen : Seen w.size ds t → t ≤ top ds := Seen.le_top
    by_cases hgt : top ds < s
    · by_cases hj : top ds + w.size ≤ s
      · -- the jump: nothing that was seen is in the window any more, and `s` itself is a jump
        have := ReplayWindow.marked_add_jump (t := t) h0 (by omega) ha
        simp only [this, false_iff]
        rintro ⟨hlt, hse | hts⟩
        · have := hseen hse; omega
        · exact hts.2 ⟨hds, hj⟩
      · have hnj : ¬ Jump w.size ds s := fun hc => hj hc.2
        rw [ReplayWindow.marked_add_slide h0 (by omega) (by omega) ha, hm]
        simp only [hnj, not_false_eq_true, and_true]
        constructor
        · rintro (⟨⟨h1, h2⟩, h3⟩ | rfl)
          · exact ⟨by omega, .inl h2⟩
          · exact ⟨by omega, .inr rfl⟩
        · rintro ⟨h1, h2 | h2⟩
          · exact .inl ⟨⟨by omega, h2⟩, by omega⟩
          · exact .inr h2
    · have hin : top ds < s + w.size := by
        rcases hf with hf | hf | hf
        · exact absurd hf hds
        · exact absurd hf hgt
        · exact hf.1
      have hnj : ¬ Jump w.size ds s := not_jump hW (by omega)
      rw [ReplayWindow.marked_add_inside h0 (by omega) (by omega) ha, hm,
        Nat.max_eq_left (by omega)]
      simp only [hnj, not_false_eq_true, and_true]
      constructor
      · rintro (⟨h1, h2⟩ | rfl)
        · exact ⟨h1, .inl h2⟩
        · exact ⟨hin, .inr rfl⟩
      · rintro ⟨h1, h2 | h2⟩
        · exact .inl ⟨h1, h2⟩
        · exact .inr h2

/-- A number that is not fresh leaves the window as it is. -/
theorem skip (h : Tracks w ds) (hs : s < noHigh) (hf : ¬ Fresh w.size ds s) :
    Tracks w (ds ++ [s]) := by
  have hds : ds ≠ [] := fun hds => hf (.inl hds)
  have hle : s ≤ top ds := Nat.not_lt.1 fun hlt => hf (.inr (.inl hlt))
  have hmax : top (ds ++ [s]) = top ds := by
    rw [top_append, top_singleton, Nat.max_eq_left hle]
  refine ⟨?_, by simp, fun _ t => ?_, fun d hd => ?_⟩
  · rw [hmax, if_neg (by simp)]; exact h.high_eq_top hds
  · rw [hmax, h.marked hds, seen_snoc]
    refine and_congr_right fun hlt => ⟨.inl, ?_⟩
    rintro (h1 | ⟨rfl, -⟩)
    · exact h1
    · exact seen_of_not_fresh hf hlt
  · rcases List.mem_append.1 hd with hd | hd
    · exact h.lt d hd
    · rw [List.mem_singleton.1 hd]; exact hs

end Tracks

/-! ### Numbers offered in turn -/

namespace ReplayWindow

/-- What `Keys.open` does with the number of an authentic frame: `Check`, then `Add` if it is
accepted. -/
def offer (w : ReplayWindow) (seq : ℕ) : Go (ReplayWindow × Bool) := do
  if ← w.check seq then
    let w ← w.add seq
    pure (w, true)
  else pure (w, false)

/-- Offer numbers in turn: the window afterwards, and the numbers that were added, oldest first. -/
def offerAll (w : ReplayWindow) : List ℕ → Go (ReplayWindow × List ℕ)
  | [] => pure (w, [])
  | seq :: seqs => do
    let (w, ok) ← w.offer seq
    let (w, added) ← w.offerAll seqs
    pure (w, if ok then seq :: added else added)

/-- The two ways in which a number is dealt with. -/
theorem offer_cases (w : ReplayWindow) (seq : ℕ) :
    (w.check seq = .ok false ∧ w.offer seq = .ok (w, false)) ∨
    ∃ w', w.check seq = .ok true ∧ w.add seq = .ok w' ∧ w'.size = w.size ∧
      w.offer seq = .ok (w', true) := by
  obtain ⟨ok, hc⟩ : ∃ ok, w.check seq = .ok ok := ⟨_, w.check_eq seq⟩
  obtain ⟨w', ha, hsize⟩ := w.add_ok seq
  cases ok with
  | false => exact .inl ⟨hc, by simp [offer, hc]⟩
  | true => exact .inr ⟨w', hc, ha, hsize, by simp [offer, hc, ha]⟩

theorem size_new (n : ℕ) : (new n).size = 64 * (max n 64 / 64) := by
  rcases Nat.lt_or_ge n 64 with h | h
  · simp [new, size, h, Nat.max_eq_right (Nat.le_of_lt h)]
  · simp [new, size, Nat.not_lt.2 h, Nat.max_eq_left h]

end ReplayWindow

namespace Tracks

variable {w : ReplayWindow} {ds acc : List ℕ} {s : ℕ}

/-- One number: it is added exactly when it is fresh. -/
theorem offer (h : Tracks w ds) (hacc : Accepts w.size ds acc) (hs : s < noHigh) :
    ∃ w' ok, w.offer s = .ok (w', ok) ∧ w'.size = w.size ∧ Tracks w' (ds ++ [s]) ∧
      Accepts w.size (ds ++ [s]) (acc ++ if ok then [s] else []) := by
  rcases h.check s with ⟨hc, hf⟩ | ⟨hc, hf⟩
  · obtain ⟨w', ha, hsize⟩ := w.add_ok s
    exact ⟨w', true, by simp [ReplayWindow.offer, hc, ha], hsize, h.add hs hf ha hsize,
      .take hacc hf⟩
  · exact ⟨w, false, by simp [ReplayWindow.offer, hc], rfl, h.skip hs hf,
      by simpa using .skip hacc hf⟩

/-- All of them: the numbers that are added are those the model accepts. -/
theorem offerAll (h : Tracks w ds) (hacc : Accepts w.size ds acc) {seqs : List ℕ}
    (hseqs : ∀ s ∈ seqs, s < noHigh) :
    ∃ w' added, w.offerAll seqs = .ok (w', added) ∧ w'.size = w.size ∧ Tracks w' (ds ++ seqs) ∧
      Accepts w.size (ds ++ seqs) (acc ++ added) := by
  induction seqs generalizing w ds acc with
  | nil => exact ⟨w, [], rfl, rfl, by simpa using h, by simpa using hacc⟩
  | cons s seqs ih =>
    rw [List.forall_mem_cons] at hseqs
    obtain ⟨w₁, ok, hoffer, hsize₁, h₁, hacc₁⟩ := h.offer hacc hseqs.1
    rw [← hsize₁] at hacc₁
    obtain ⟨w₂, added, hrest, hsize₂, h₂, hacc₂⟩ := ih h₁ hacc₁ hseqs.2
    refine ⟨w₂, if ok then s :: added else added, ?_, hsize₂.trans hsize₁, by simpa using h₂, ?_⟩
    · simp [ReplayWindow.offerAll, hoffer, hrest]
    · rw [hsize₁] at hacc₂
      cases ok <;> simpa using hacc₂

end Tracks

/-- **The window drops no fresh number and every stale one.**  After any numbers below `2 ^ 32` were
offered in turn to a new window of `W` numbers: as long as none was added, every number is accepted;
and from then on, with `H` the largest number that was added, a number that was never added and is
less than `W` below `H` is accepted, and one that is `W` or more below `H` is not. -/
theorem fresh_and_stale (size : ℕ) (seqs : List ℕ) (hseqs : ∀ s ∈ seqs, s < 2 ^ 32) :
    ∃ w added, (ReplayWindow.new size).offerAll seqs = .ok (w, added) ∧
      w.size = 64 * (max size 64 / 64) ∧
      (added = [] → ∀ seq, w.check seq = .ok true) ∧
      ∀ H ∈ added, (∀ s ∈ added, s ≤ H) → ∀ seq,
        (seq ∉ added → H < seq + w.size → w.check seq = .ok true) ∧
        (seq + w.size ≤ H → w.check seq = .ok false) := by
  have hlt : ∀ s ∈ seqs, s < noHigh := fun s hs => Nat.lt_of_lt_of_le (hseqs s hs) (by decide)
  obtain ⟨w, added, hall, hsize, htracks, hacc⟩ := (Tracks.new size).offerAll .nil hlt
  rw [List.nil_append] at htracks hacc
  rw [List.nil_append, ← hsize] at hacc
  refine ⟨w, added, hall, hsize.trans (ReplayWindow.size_new size), fun hnil seq => ?_,
    fun H hH hmax seq => ⟨fun hnew hin => ?_, fun hold => ?_⟩⟩
  · rcases htracks.check seq with ⟨hc, -⟩ | ⟨-, hf⟩
    · exact hc
    · exact absurd (.inl (hacc.nil_iff.1 hnil)) hf
  · have htop := hacc.top_eq ▸ top_eq_of_max hH hmax
    rcases htracks.check seq with ⟨hc, -⟩ | ⟨-, hf⟩
    · exact hc
    · exact absurd (hacc.fresh_of_not_mem hnew (by omega)) hf
  · have htop := hacc.top_eq ▸ top_eq_of_max hH hmax
    rcases htracks.check seq with ⟨-, hf⟩ | ⟨hc, -⟩
    · have hW := Tracks.size_pos w
      rcases hf with hds | hf | ⟨hf, -⟩
      · rw [hacc.nil_iff.2 hds] at hH
        cases hH
      · omega
      · omega
    · exact hc

/-- A window of 64 numbers that has been offered 5, 200, 137 and 136: only the last is stale, and
was not added. -/
theorem fresh_and_stale_slide :
    ((ReplayWindow.new 64).offerAll [5, 200, 137, 136]).map Prod.snd = .ok [5, 200, 137] ∧
    ∃ w added, (ReplayWindow.new 64).offerAll [5, 200, 137, 136] = .ok (w, added) ∧
      w.check 150 = .ok true ∧ w.check 136 = .ok false := by
  have hadded : ((ReplayWindow.new 64).offerAll [5, 200, 137, 136]).map Prod.snd =
      .ok [5, 200, 137] := by decide
  obtain ⟨w, added, hall, hsize, -, hmem⟩ := fresh_and_stale 64 [5, 200, 137, 136] (by decide)
  rw [hall] at hadded
  obtain rfl : added = [5, 200, 137] := Except.ok.inj hadded
  have hsize : w.size = 64 := hsize
  refine ⟨by rw [hall]; rfl, w, _, hall, ?_, ?_⟩
  · exact (hmem 200 (by decide) (by decide) 150).1 (by decide) (by omega)
  · exact (hmem 200 (by decide) (by decide) 136).2 (by omega)

end VibeVpn
