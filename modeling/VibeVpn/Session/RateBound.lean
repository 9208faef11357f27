import VibeVpn.Session.Admission
import Mathlib.Data.List.Count
import Mathlib.Data.Nat.Find

/-!
# How many first messages pass the rate limit

`requireCookie` counts the calls for an address in a *bucket*, which it makes on demand: by the
first call for the address, and by the first call after the bucket's limit.  So two buckets of an
address can follow one another closely, but not three.

## The model

A call (`Call`) reads the clock on entry and once more when it makes a bucket; both readings lie in
the critical section of `cookieRateMu`, so those of one call are not before those of the calls it
comes after.  The time of a call is any instant between its two readings.  `answers` are the answers
to calls in turn; each has the number of its bucket among the buckets of its address.

## Main results

* `answers_filter` : the answers for one address are those to its own calls.
* `handshake_rate_bound` : **at most 20 calls for an address pass in one bucket, and at most 40
  within 10 seconds**, whatever the calls for other addresses are.
-/

namespace VibeVpn

/-! ### Numbered events -/

section Numbered

variable {α : Type*} {l : List α} {p q r : α → Bool}

theorem countP_le_add (h : ∀ a ∈ l, p a = true → q a = true ∨ r a = true) :
    l.countP p ≤ l.countP q + l.countP r := by
  induction l with
  | nil => simp
  | cons a l ih =>
    rw [List.forall_mem_cons] at h
    have hrest := ih h.2
    simp only [List.countP_cons]
    cases hp : p a with
    | false =>
      rw [if_neg Bool.false_ne_true]
      omega
    | true =>
      rcases h.1 hp with hq | hq
      · rw [if_pos rfl, if_pos hq]
        omega
      · rw [if_pos rfl, if_pos hq]
        omega

/-- **Two windows at a time.**  Where each number occurs at most `n` times among the events in `p`,
and two events in `p` never have numbers that are 2 or more apart, there are at most `2 * n` of
them. -/
theorem countP_le_of_adjacent (num : α → ℕ) {n : ℕ}
    (hn : ∀ k, (l.countP fun a => p a && num a == k) ≤ n)
    (hadj : ∀ a ∈ l, ∀ b ∈ l, p a = true → p b = true → num b < num a + 2) :
    l.countP p ≤ 2 * n := by
  by_cases hex : ∃ k, ∃ a ∈ l, p a = true ∧ num a = k
  · classical
    -- all the numbers are the smallest one or its successor
    obtain ⟨a, ha, hpa, hka⟩ := Nat.find_spec hex
    have hle : l.countP p ≤ (l.countP fun b => p b && num b == Nat.find hex) +
        l.countP fun b => p b && num b == Nat.find hex + 1 := by
      refine countP_le_add fun b hb hpb => ?_
      have hmin := Nat.find_min' hex ⟨b, hb, hpb, rfl⟩
      have hlt := hadj a ha b hb hpa hpb
      simp only [hpb, Bool.true_and, beq_iff_eq]
      omega
    have h0 := hn (Nat.find hex)
    have h1 := hn (Nat.find hex + 1)
    omega
  · have hnone : l.countP p = 0 :=
      List.countP_eq_zero.2 fun a ha hpa => hex ⟨num a, a, ha, hpa, rfl⟩
    omega

end Numbered

namespace RateLimit

/-! ### Calls and their answers -/

/-- A call `requireCookie(ip)`. -/
structure Call where
  /-- `ip`. -/
  ip : Bytes
  /-- The clock when it is compared. -/
  now : ℤ
  /-- The time of the call. -/
  time : ℤ
  /-- The clock when a new limit is set. -/
  now' : ℤ
  now_le : now ≤ time
  le_now' : time ≤ now'

/-- A call with its answer. -/
structure Answer where
  /-- The call. -/
  call : Call
  /-- The number of its bucket among the buckets of its address. -/
  bucket : ℕ
  /-- What it returns. -/
  cookie : Bool

/-- The table, with the number of buckets made for each address. -/
structure State where
  /-- `cookieRate`. -/
  rate : CookieRate
  /-- The number of buckets made. -/
  made : Bytes → ℕ

/-- The call makes a bucket. -/
def opens (r : CookieRate) (c : Call) : Bool := (r.lookup c.ip).all fun b => b.reset < c.now

namespace State

/-- No call was made yet. -/
def start : State := ⟨∅, fun _ => 0⟩

/-- One call. -/
def step (s : State) (c : Call) : State × Answer :=
  let res := requireCookie s.rate c.now c.now' c.ip
  let made := if opens s.rate c then Function.update s.made c.ip (s.made c.ip + 1) else s.made
  (⟨res.1, made⟩, ⟨c, made c.ip, res.2⟩)

/-- The answers to calls in turn. -/
def answers (s : State) : List Call → List Answer
  | [] => []
  | c :: cs => (s.step c).2 :: (s.step c).1.answers cs

end State

/-! ### One address -/

/-- What a call does to the bucket of its address: the bucket afterwards, and the answer. -/
def visit (b : Option RateBucket) (now now' : ℤ) : RateBucket × Bool :=
  match b with
  | none => (⟨1, now' + handshakeRateWindow⟩, false)
  | some b =>
    if b.reset < now then (⟨1, now' + handshakeRateWindow⟩, false)
    else
      let count := (b.count + 1) % 2 ^ 32
      ({ b with count }, decide (handshakeRateLimit < count))

theorem requireCookie_eq (r : CookieRate) (now now' : ℤ) (ip : Bytes) :
    requireCookie r now now' ip =
      (r.insert ip (visit (r.lookup ip) now now').1, (visit (r.lookup ip) now now').2) := by
  unfold requireCookie visit
  cases r.lookup ip with
  | none => rfl
  | some b =>
    dsimp only
    split_ifs <;> rfl

/-- The states agree on an address. -/
def Same (ip : Bytes) (s s' : State) : Prop :=
  s.rate.lookup ip = s'.rate.lookup ip ∧ s.made ip = s'.made ip

/-- A call for another address changes nothing for this one. -/
theorem Same.step_other {ip : Bytes} {s s' : State} (h : Same ip s s') {c : Call} (hc : c.ip ≠ ip) :
    Same ip (s.step c).1 s' := by
  refine ⟨?_, ?_⟩
  · simp only [State.step, requireCookie_eq]
    rw [GoMap.lookup_insert_eq, if_neg hc.symm, h.1]
  · simp only [State.step]
    split_ifs
    · rw [Function.update_of_ne hc.symm, h.2]
    · exact h.2

/-- A call for the address has the same answer in both, and they still agree. -/
theorem Same.step {s s' : State} {c : Call} (h : Same c.ip s s') :
    (s.step c).2 = (s'.step c).2 ∧ Same c.ip (s.step c).1 (s'.step c).1 := by
  have hopens : opens s.rate c = opens s'.rate c := by rw [opens, opens, h.1]
  have hmade : (s.step c).1.made c.ip = (s'.step c).1.made c.ip := by
    simp only [State.step, hopens]
    split_ifs
    · simp [h.2]
    · exact h.2
  refine ⟨?_, ?_, hmade⟩
  · have hcookie : (s.step c).2.cookie = (s'.step c).2.cookie := by
      simp only [State.step, requireCookie_eq, h.1]
    change Answer.mk c ((s.step c).1.made c.ip) (s.step c).2.cookie = _
    rw [hmade, hcookie]
    rfl
  · simp only [State.step, requireCookie_eq]
    rw [GoMap.lookup_insert_eq, GoMap.lookup_insert_eq, h.1]

/-- **The answers for one address are those to its own calls.** -/
theorem answers_filter (ip : Bytes) {s s' : State} (h : Same ip s s') (cs : List Call) :
    (s.answers cs).filter (fun a => a.call.ip == ip) =
      s'.answers (cs.filter fun c => c.ip == ip) := by
  induction cs generalizing s s' with
  | nil => rfl
  | cons c cs ih =>
    have hcall : (s.step c).2.call = c := rfl
    by_cases hc : c.ip = ip
    · subst hc
      obtain ⟨hans, hnext⟩ := h.step
      rw [State.answers, List.filter_cons_of_pos (by simp [hcall]),
        List.filter_cons_of_pos (by simp), State.answers, hans, ih hnext]
    · rw [State.answers, List.filter_cons_of_neg (by simpa [hcall] using hc),
        List.filter_cons_of_neg (by simpa using hc), ih (h.step_other hc)]

/-! ### The history of one address -/

/-- The number of calls in a bucket. -/
def calls (past : List Answer) (k : ℕ) : ℕ := past.countP fun a => a.bucket == k

/-- The number of calls in a bucket that passed. -/
def passed (past : List Answer) (k : ℕ) : ℕ := past.countP fun a => !a.cookie && a.bucket == k

theorem passed_le_calls (past : List Answer) (k : ℕ) : passed past k ≤ calls past k :=
  List.countP_mono_left fun a _ h => by
    rw [Bool.and_eq_true] at h
    exact h.2

/-- The history `past` of an address with the bucket `b`, the `m`-th one, up to the time `t`. -/
structure Inv (b : Option RateBucket) (m : ℕ) (past : List Answer) (t : ℤ) : Prop where
  empty : b = none → past = []
  count : ∀ x, b = some x → calls past m < 2 ^ 32 → x.count = calls past m
  passed : ∀ k, calls past k < 2 ^ 32 → passed past k ≤ handshakeRateLimit
  bucket_le : ∀ a ∈ past, a.bucket ≤ m
  time_le : ∀ a ∈ past, a.call.time ≤ t
  /-- The earlier buckets are a whole window before the limit. -/
  settled : ∀ x, b = some x → ∀ a ∈ past, a.bucket < m →
    a.call.time + handshakeRateWindow ≤ x.reset
  /-- The buckets before the last are more than a whole window ago. -/
  old : ∀ a ∈ past, a.bucket + 2 ≤ m → a.call.time + handshakeRateWindow < t
  /-- Buckets that do not follow one another are more than a whole window apart. -/
  apart : ∀ a ∈ past, ∀ a' ∈ past, a.bucket + 2 ≤ a'.bucket →
    a.call.time + handshakeRateWindow < a'.call.time

theorem Inv.start (t : ℤ) : Inv none 0 [] t where
  empty _ := rfl
  count _ h := by cases h
  passed _ _ := Nat.zero_le _
  bucket_le _ h := by cases h
  time_le _ h := by cases h
  settled _ h := by cases h
  old _ h := by cases h
  apart _ h := by cases h

variable {b : Option RateBucket} {m : ℕ} {past : List Answer} {t : ℤ} {c : Call}

theorem calls_snoc (past : List Answer) (a : Answer) (k : ℕ) :
    calls (past ++ [a]) k = calls past k + if a.bucket = k then 1 else 0 := by
  rw [calls, List.countP_append, List.countP_singleton]
  simp [calls]

theorem passed_snoc (past : List Answer) (a : Answer) (k : ℕ) :
    RateLimit.passed (past ++ [a]) k =
      RateLimit.passed past k + if a.cookie = false ∧ a.bucket = k then 1 else 0 := by
  rw [RateLimit.passed, List.countP_append, List.countP_singleton]
  simp [RateLimit.passed]

/-- A call that makes a bucket. -/
theorem Inv.open (h : Inv b m past t) (ht : t ≤ c.now) (hb : ∀ x, b = some x → x.reset < c.now) :
    Inv (some ⟨1, c.now' + handshakeRateWindow⟩) (m + 1) (past ++ [⟨c, m + 1, false⟩]) c.now' := by
  have hnow := c.now_le
  have hnow' := c.le_now'
  have hlow : ∀ a ∈ past, a.bucket + 2 ≤ m + 1 →
      a.call.time + handshakeRateWindow < c.now := by
    intro a ha hk
    cases b with
    | none => simp [h.empty rfl] at ha
    | some x => exact Int.lt_of_le_of_lt (h.settled x rfl a ha (by omega)) (hb x rfl)
  have hzero : calls past (m + 1) = 0 :=
    List.countP_eq_zero.2 fun a ha hk => by
      have := h.bucket_le a ha
      rw [beq_iff_eq] at hk
      omega
  refine ⟨fun hn => (nomatch hn), ?_, fun k hk => ?_, ?_, ?_, ?_, ?_, ?_⟩
  · rintro _ ⟨⟩ -
    rw [calls_snoc, hzero, if_pos rfl]
  · rw [passed_snoc]
    rw [calls_snoc] at hk
    have hle := passed_le_calls past k
    have hlimit := h.passed k (by omega)
    dsimp only
    split_ifs with heq
    · rw [← heq.2, hzero] at hle
      rw [← heq.2]
      simp only [handshakeRateLimit]
      omega
    · exact hlimit
  · simp only [List.forall_mem_append, List.forall_mem_singleton]
    exact ⟨fun a ha => Nat.le_succ_of_le (h.bucket_le a ha), Nat.le_refl _⟩
  · simp only [List.forall_mem_append, List.forall_mem_singleton]
    exact ⟨fun a ha => by have := h.time_le a ha; omega, hnow'⟩
  · rintro _ ⟨⟩
    simp only [List.forall_mem_append, List.forall_mem_singleton]
    exact ⟨fun a ha _ => by have := h.time_le a ha; omega, fun hlt => by omega⟩
  · simp only [List.forall_mem_append, List.forall_mem_singleton]
    exact ⟨fun a ha hk => by have := hlow a ha hk; omega, fun hk => by omega⟩
  · simp only [List.forall_mem_append, List.forall_mem_singleton]
    refine ⟨fun a ha => ⟨h.apart a ha, fun hk => ?_⟩, fun a ha hk => ?_, fun hk => ?_⟩
    · have := hlow a ha hk
      omega
    · have := h.bucket_le a ha
      omega
    · omega

/-- A call that counts in the bucket. -/
theorem Inv.count_in {x : RateBucket} (h : Inv (some x) m past t) (ht : t ≤ c.now) :
    Inv (some { x with count := (x.count + 1) % 2 ^ 32 }) m
      (past ++ [⟨c, m, decide (handshakeRateLimit < (x.count + 1) % 2 ^ 32)⟩]) c.now' := by
  have hnow := c.now_le
  have hnow' := c.le_now'
  have hold : ∀ a ∈ past, a.bucket + 2 ≤ m → a.call.time + handshakeRateWindow < c.now :=
    fun a ha hk => Int.lt_of_lt_of_le (h.old a ha hk) ht
  have hcount : calls past m + 1 < 2 ^ 32 → (x.count + 1) % 2 ^ 32 = calls past m + 1 := by
    intro hlt
    rw [h.count x rfl (by omega), Nat.mod_eq_of_lt hlt]
  refine ⟨fun hn => (nomatch hn), ?_, fun k hk => ?_, ?_, ?_, ?_, ?_, ?_⟩
  · rintro _ ⟨⟩ hlt
    rw [calls_snoc, if_pos rfl] at hlt ⊢
    exact hcount hlt
  · rw [passed_snoc]
    rw [calls_snoc] at hk
    have hle := passed_le_calls past k
    have hlimit := h.passed k (by omega)
    dsimp only at hk ⊢
    split_ifs with heq
    · -- it passes, so it is among the first calls of its bucket
      obtain ⟨hpass, rfl⟩ := heq
      rw [if_pos rfl] at hk
      rw [decide_eq_false_iff_not, hcount hk] at hpass
      omega
    · exact hlimit
  · simp only [List.forall_mem_append, List.forall_mem_singleton]
    exact ⟨h.bucket_le, Nat.le_refl _⟩
  · simp only [List.forall_mem_append, List.forall_mem_singleton]
    exact ⟨fun a ha => by have := h.time_le a ha; omega, hnow'⟩
  · rintro _ ⟨⟩
    simp only [List.forall_mem_append, List.forall_mem_singleton]
    exact ⟨h.settled x rfl, fun hlt => absurd hlt (Nat.lt_irrefl _)⟩
  · simp only [List.forall_mem_append, List.forall_mem_singleton]
    exact ⟨fun a ha hk => by have := hold a ha hk; omega, fun hk => by omega⟩
  · simp only [List.forall_mem_append, List.forall_mem_singleton]
    refine ⟨fun a ha => ⟨h.apart a ha, fun hk => ?_⟩, fun a ha hk => ?_, fun hk => ?_⟩
    · have := hold a ha hk
      omega
    · have := h.bucket_le a ha
      omega
    · omega

/-- One call for the address. -/
theorem Inv.step {s : State} {ip : Bytes} (h : Inv (s.rate.lookup ip) (s.made ip) past t)
    (hip : c.ip = ip) (ht : t ≤ c.now) :
    Inv ((s.step c).1.rate.lookup ip) ((s.step c).1.made ip) (past ++ [(s.step c).2]) c.now' := by
  subst hip
  have hrate : (s.step c).1.rate.lookup c.ip =
      some (visit (s.rate.lookup c.ip) c.now c.now').1 := by
    simp only [State.step, requireCookie_eq]
    rw [GoMap.lookup_insert_eq, if_pos rfl]
  have hans : (s.step c).2 = ⟨c, (s.step c).1.made c.ip,
      (visit (s.rate.lookup c.ip) c.now c.now').2⟩ := by
    simp only [State.step, requireCookie_eq]
  have hmade : (s.step c).1.made c.ip =
      if opens s.rate c then s.made c.ip + 1 else s.made c.ip := by
    simp only [State.step]
    split_ifs
    · rw [Function.update_self]
    · rfl
  rw [hrate, hans, hmade]
  unfold opens
  cases hb : s.rate.lookup c.ip with
  | none =>
    rw [hb] at h
    exact h.open ht fun x hx => (nomatch hx)
  | some x =>
    rw [hb] at h
    by_cases hx : x.reset < c.now
    · simpa [visit, hx] using h.open ht fun y hy => by cases hy; exact hx
    · simpa [visit, hx] using h.count_in ht

/-- Calls for the address in turn. -/
theorem Inv.answers {s : State} {ip : Bytes} (h : Inv (s.rate.lookup ip) (s.made ip) past t)
    {cs : List Call} (hip : ∀ c ∈ cs, c.ip = ip) (ht : ∀ c ∈ cs, t ≤ c.now)
    (hcs : cs.Pairwise fun c c' => c.now' ≤ c'.now) :
    ∃ b m t', Inv b m (past ++ s.answers cs) t' := by
  induction cs generalizing s past t with
  | nil => exact ⟨_, _, t, by simpa [State.answers] using h⟩
  | cons c cs ih =>
    rw [List.forall_mem_cons] at hip ht
    rw [List.pairwise_cons] at hcs
    obtain ⟨b, m, t', hinv⟩ := ih (h.step hip.1 ht.1) hip.2 hcs.1 hcs.2
    exact ⟨b, m, t', by simpa [State.answers] using hinv⟩

theorem countP_filter_ip (l : List Answer) (ip : Bytes) (p : Answer → Bool) :
    (l.countP fun a => a.call.ip == ip && p a) = (l.filter fun a => a.call.ip == ip).countP p := by
  rw [List.countP_filter]
  exact List.countP_congr fun a _ => by rw [Bool.and_comm]

/-- **The rate bound.**  Of calls at times that do not decrease, with fewer than `2 ^ 32` calls for
an address in each of its buckets, at most 20 calls for the address return `false` in one bucket,
and at most 40 at times in an interval of 10 seconds; and the answers for the address are those it
gets without the calls for others. -/
theorem handshake_rate_bound (cs : List Call) (hcs : cs.Pairwise fun c c' => c.now' ≤ c'.now)
    (ip : Bytes)
    (hlife : ∀ k, ((State.start.answers cs).countP fun a => a.call.ip == ip && a.bucket == k) <
      2 ^ 32) :
    (∀ k, ((State.start.answers cs).countP fun a =>
      a.call.ip == ip && (!a.cookie && a.bucket == k)) ≤ 20) ∧
    (∀ T : ℤ, ((State.start.answers cs).countP fun a => a.call.ip == ip &&
      (!a.cookie && (decide (T ≤ a.call.time) && decide (a.call.time ≤ T + 10 * 10 ^ 9)))) ≤ 40) ∧
    (State.start.answers cs).filter (fun a => a.call.ip == ip) =
      State.start.answers (cs.filter fun c => c.ip == ip) := by
  have hfilter := answers_filter ip (s := .start) ⟨rfl, rfl⟩ cs
  simp only [countP_filter_ip, hfilter] at hlife ⊢
  have hown : ∀ c ∈ cs.filter fun c => c.ip == ip, c.ip = ip := fun c hc => by
    simpa using (List.mem_filter.1 hc).2
  -- a time before all calls
  obtain ⟨t, ht⟩ : ∃ t, ∀ c ∈ cs.filter fun c => c.ip == ip, t ≤ c.now := by
    have hpw := hcs.filter fun c => c.ip == ip
    cases hl : cs.filter fun c => c.ip == ip with
    | nil => exact ⟨0, fun c hc => by cases hc⟩
    | cons d ds =>
      rw [hl, List.pairwise_cons] at hpw
      refine ⟨d.now, List.forall_mem_cons.2 ⟨Int.le_refl _, fun c hc => ?_⟩⟩
      have := hpw.1 c hc
      have := d.now_le
      have := d.le_now'
      omega
  obtain ⟨b, m, t', hinv⟩ := (Inv.start t).answers (s := .start) hown ht (hcs.filter _)
  rw [List.nil_append] at hinv
  refine ⟨fun k => hinv.passed k (hlife k), fun T => ?_, trivial⟩
  refine countP_le_of_adjacent Answer.bucket (n := 20) (fun k => ?_) ?_
  · refine Nat.le_trans (List.countP_mono_left fun a _ ha => ?_) (hinv.passed k (hlife k))
    simp only [Bool.and_eq_true] at ha ⊢
    exact ⟨ha.1.1, ha.2⟩
  · intro a ha a' ha' hp hp'
    simp only [Bool.and_eq_true, decide_eq_true_eq] at hp hp'
    by_contra hfar
    have := hinv.apart a ha a' ha' (by omega)
    unfold handshakeRateWindow at this
    omega

/-- Calls from 192.0.2.1 at two times: the first 21 in one bucket, then one more 11 s later. -/
def burst : List Call :=
  List.replicate 21 ⟨[192, 0, 2, 1], 5, 5, 5, by decide, by decide⟩ ++
    [⟨[192, 0, 2, 1], 11000000006, 11000000006, 11000000007, by decide, by decide⟩]

/-- Of the calls of a burst, all but one pass, and the bounds hold. -/
theorem handshake_rate_bound_burst :
    ((State.start.answers burst).map fun a => (a.bucket, a.cookie)) =
      List.replicate 20 (1, false) ++ [(1, true), (2, false)] ∧
    ((State.start.answers burst).countP fun a => a.call.ip == [192, 0, 2, 1] &&
      (!a.cookie && (decide (0 ≤ a.call.time) && decide (a.call.time ≤ 0 + 10 * 10 ^ 9)))) ≤
        40 := by
  have hanswers : ((State.start.answers burst).map fun a => (a.bucket, a.cookie)) =
      List.replicate 20 (1, false) ++ [(1, true), (2, false)] := by decide
  have hlen : (State.start.answers burst).length = 22 := by
    rw [← List.length_map (fun a : Answer => (a.bucket, a.cookie)), hanswers]
    rfl
  refine ⟨hanswers, (handshake_rate_bound burst (by decide) [192, 0, 2, 1] fun k => ?_).2.1 0⟩
  exact Nat.lt_of_le_of_lt List.countP_le_length (hlen ▸ by decide)

end RateLimit

end VibeVpn
