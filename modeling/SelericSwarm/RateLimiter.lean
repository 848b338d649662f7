import SelericSwarm.ApiSecurity

/-! The limiter by itself: what it says to each call, and to the client that waits as told. -/
open List

namespace SelericSwarm.Api
open Keyed SlidingWindow

structure RateLimiter where
  limit : ℕ
  windowS : ℚ

/-- `SlidingWindowRateLimiter.__init__` -/
def RateLimiter.create (limit : Int) (windowS : ℚ) : RateLimiter where
  limit := (max 1 limit).toNat
  windowS := windowS

structure RateReply where
  allowed : Bool
  remaining : ℕ
  retryAfter : Int
  deriving DecidableEq

structure RateCall where
  key : String
  now : ℚ

namespace RateLimiter
variable (limiter : RateLimiter)

/-- `allow`, with the hits of the key. -/
def reply (hits : List ℚ) (now : ℚ) : RateReply :=
  let q := live limiter.windowS now hits
  if limiter.limit ≤ q.length then
    { allowed := false, remaining := 0, retryAfter := ⌊max 1 (limiter.windowS - (now - q.head?.getD now))⌋ }
  else { allowed := true, remaining := limiter.limit - (q.length + 1), retryAfter := 0 }

/-- The hits of the keys, and the calls that were admitted. -/
structure Traffic where
  hits : Dict String (List ℚ) := .empty
  admitted : List RateCall := []

def allow (s : Traffic) (c : RateCall) : RateReply × Traffic :=
  let hits := s.hits.getD c.key []
  (limiter.reply hits c.now, {
    hits := s.hits.set c.key (offer limiter.limit limiter.windowS c.now hits).2
    admitted := if (limiter.reply hits c.now).allowed then s.admitted ++ [c] else s.admitted })

/-- What the calls are told, and what is left behind. -/
def answer : Traffic → List RateCall → List RateReply × Traffic
  | s, [] => ([], s)
  | s, c :: calls => ((limiter.allow s c).1 :: (answer (limiter.allow s c).2 calls).1, (answer (limiter.allow s c).2 calls).2)

/-- The moments at which calls of the key were admitted. -/
def Traffic.times (s : Traffic) (key : String) : List ℚ := (s.admitted.filter fun c => c.key = key).map RateCall.now

/-- The calls in the order of their times, none before `start`. -/
def Ordered (start : ℚ) : List RateCall → Prop
  | [] => True
  | c :: calls => start ≤ c.now ∧ Ordered c.now calls

/-! What is said depends on what was admitted. -/

variable {limiter}

theorem reply_allowed (hits : List ℚ) (now : ℚ) :
    (limiter.reply hits now).allowed = (offer limiter.limit limiter.windowS now hits).1 := by
  unfold reply offer
  dsimp only
  split <;> rfl

def recent (windowS : ℚ) (admitted : List ℚ) (now : ℚ) : List ℚ := admitted.filter fun t => now - windowS < t

theorem reply_eq {admitted hits : List ℚ} {now now' : ℚ}
    (h : Tracks limiter.limit limiter.windowS now admitted hits) (hnow : now ≤ now') : limiter.reply hits now' =
      if limiter.limit ≤ (recent limiter.windowS admitted now').length then
        { allowed := false, remaining := 0
          retryAfter := ⌊max 1 (limiter.windowS - (now' - (recent limiter.windowS admitted now').head?.getD now'))⌋ }
      else { allowed := true, remaining := limiter.limit - ((recent limiter.windowS admitted now').length + 1)
             retryAfter := 0 } := by
  rw [reply, h.live_eq hnow]
  rfl

/-- Every key has a window of its own. -/
def Windows (limiter : RateLimiter) (now : ℚ) (s : Traffic) : Prop :=
  ∀ key, Tracks limiter.limit limiter.windowS now (s.times key) (s.hits.getD key [])

theorem Windows.start (limiter : RateLimiter) (now : ℚ) : Windows limiter now {} := fun _ => .empty _ _ _

theorem Windows.later {s : Traffic} {now now' : ℚ} (h : Windows limiter now s) (hnow : now ≤ now') :
    Windows limiter now' s := fun key => (h key).later hnow

theorem times_allow (s : Traffic) (c : RateCall) (key : String) : (limiter.allow s c).2.times key =
    if c.key = key ∧ (limiter.allow s c).1.allowed then s.times key ++ [c.now] else s.times key := by
  unfold Traffic.times allow
  dsimp only
  cases (limiter.reply (s.hits.getD c.key []) c.now).allowed with
  | false => simp
  | true =>
    by_cases hkey : c.key = key
    · simp [hkey]
    · simp [hkey]

theorem Windows.allow {s : Traffic} {c : RateCall} {now : ℚ} (h : Windows limiter now s) (hwindow : 0 < limiter.windowS)
    (hnow : now ≤ c.now) : Windows limiter c.now (limiter.allow s c).2 := by
  intro key
  rw [times_allow]
  by_cases hkey : c.key = key
  · subst hkey
    have hoffer := (h c.key).offer hwindow hnow
    rw [← reply_allowed] at hoffer
    simp only [true_and]
    rw [RateLimiter.allow, Dict.getD_set, if_pos rfl]
    exact hoffer
  · rw [if_neg fun hsame => hkey hsame.1, RateLimiter.allow, Dict.getD_set, if_neg hkey]
    exact (h key).later hnow

def last (start : ℚ) : List RateCall → ℚ
  | [] => start
  | c :: calls => last c.now calls

theorem Windows.answer (hwindow : 0 < limiter.windowS) (calls : List RateCall) : ∀ {s : Traffic} {now : ℚ},
    Windows limiter now s → Ordered now calls → Windows limiter (last now calls) (limiter.answer s calls).2 := by
  induction calls with
  | nil => exact fun h _ => h
  | cons c calls ih => exact fun h hordered => ih (h.allow hwindow hordered.1) hordered.2

theorem ordered_append {before after : List RateCall} : ∀ {start : ℚ},
    Ordered start (before ++ after) ↔ Ordered start before ∧ Ordered (last start before) after := by
  induction before with
  | nil => exact fun {start} => ⟨fun h => ⟨trivial, h⟩, And.right⟩
  | cons c before ih =>
    intro start
    constructor
    · exact fun h => ⟨⟨h.1, (ih.mp h.2).1⟩, (ih.mp h.2).2⟩
    · exact fun h => ⟨h.1.1, ih.mpr ⟨h.1.2, h.2⟩⟩

theorem answer_congr (hwindow : 0 < limiter.windowS) (calls : List RateCall) : ∀ {s s' : Traffic} {now : ℚ},
    Windows limiter now s → Windows limiter now s' → s'.admitted = s.admitted → Ordered now calls →
    (limiter.answer s' calls).1 = (limiter.answer s calls).1 := by
  induction calls with
  | nil => exact fun _ _ _ _ => rfl
  | cons c calls ih =>
    intro s s' now h h' hsame hordered
    have hreply : (limiter.allow s' c).1 = (limiter.allow s c).1 := by
      have htimes : s'.times c.key = s.times c.key := by rw [Traffic.times, Traffic.times, hsame]
      rw [allow, allow, reply_eq (h c.key) hordered.1, reply_eq (h' c.key) hordered.1, htimes]
    have hadmitted : (limiter.allow s' c).2.admitted = (limiter.allow s c).2.admitted := by
      change (if (limiter.allow s' c).1.allowed then s'.admitted ++ [c] else s'.admitted) =
        if (limiter.allow s c).1.allowed then s.admitted ++ [c] else s.admitted
      rw [hreply, hsame]
    rw [answer, answer, hreply,
      ih (h.allow hwindow hordered.1) (h'.allow hwindow hordered.1) hadmitted hordered.2]

/-! The laws. -/

def replyAfter (limiter : RateLimiter) (before : List RateCall) (c : RateCall) : RateReply :=
  (limiter.allow (limiter.answer {} before).2 c).1

/-- The admissions of a key in the window before a moment. -/
def counted (limiter : RateLimiter) (calls : List RateCall) (key : String) (now : ℚ) : List ℚ :=
  recent limiter.windowS ((limiter.answer {} calls).2.times key) now

/-- A client that is refused waits as told, with no other calls on the key in between. -/
def Served (limiter : RateLimiter) (before : List RateCall) (c : RateCall) : Prop :=
  ∀ others : List RateCall, (∀ o ∈ others, o.key ≠ c.key) →
    Ordered c.now (others ++ [{ key := c.key, now := c.now + (limiter.replyAfter before c).retryAfter }]) →
      (limiter.replyAfter (before ++ c :: others)
        { key := c.key, now := c.now + (limiter.replyAfter before c).retryAfter }).allowed

/-- The oldest admission in the window is at most a second, or whole seconds, from leaving it. -/
def Whole (limiter : RateLimiter) (before : List RateCall) (c : RateCall) : Prop :=
  ∀ oldest, (limiter.counted before c.key c.now).head? = some oldest →
    oldest + limiter.windowS - c.now ≤ 1 ∨ ∃ n : ℤ, oldest + limiter.windowS - c.now = n

theorem answer_append (before after : List RateCall) : ∀ s : Traffic,
    (limiter.answer s (before ++ after)).2 = (limiter.answer (limiter.answer s before).2 after).2 := by
  induction before with
  | nil => exact fun _ => rfl
  | cons c before ih => exact fun s => ih (limiter.allow s c).2

theorem times_others {key : String} (others : List RateCall) (h : ∀ o ∈ others, o.key ≠ key) : ∀ s : Traffic,
    (limiter.answer s others).2.times key = s.times key := by
  induction others with
  | nil => exact fun _ => rfl
  | cons o others ih =>
    intro s
    rw [answer]
    dsimp only
    rw [ih (fun o' ho' => h o' (mem_cons_of_mem o ho')), times_allow, if_neg]
    exact fun hsame => h o mem_cons_self hsame.1

section Runs
variable {start : ℚ} {before : List RateCall} {c : RateCall}

section
variable (hwindow : 0 < limiter.windowS)
include hwindow

theorem windows_answer (hordered : Ordered start before) :
    Windows limiter (last start before) (limiter.answer {} before).2 :=
  (Windows.start limiter start).answer hwindow before hordered

theorem replyAfter_eq (hordered : Ordered start (before ++ [c])) :
    limiter.replyAfter before c =
      if limiter.limit ≤ (limiter.counted before c.key c.now).length then
        { allowed := false, remaining := 0
          retryAfter := ⌊max 1 (limiter.windowS - (c.now - (limiter.counted before c.key c.now).head?.getD c.now))⌋ }
      else { allowed := true, remaining := limiter.limit - ((limiter.counted before c.key c.now).length + 1)
             retryAfter := 0 } := by
  obtain ⟨hbefore, hnow, -⟩ := ordered_append.mp hordered
  exact reply_eq (windows_answer hwindow hbefore c.key) hnow

theorem length_counted_le (hordered : Ordered start before) (key : String) {now : ℚ}
    (hnow : last start before ≤ now) : (limiter.counted before key now).length ≤ limiter.limit := by
  have htracks := windows_answer hwindow hordered key
  have hbounded := htracks.bounded_right (now - limiter.windowS)
  rw [counted, recent, ← countP_eq_length_filter]
  refine le_trans (countP_mono_left fun t ht hlate => ?_) hbounded
  have hpast := (htracks.past t ht).trans hnow
  rw [decide_eq_true_eq] at hlate ⊢
  exact ⟨hlate, by linarith⟩

theorem refused_iff (hordered : Ordered start (before ++ [c])) :
    (limiter.replyAfter before c).allowed = false ↔ (limiter.counted before c.key c.now).length = limiter.limit := by
  obtain ⟨hbefore, hnow, -⟩ := ordered_append.mp hordered
  have hle := length_counted_le hwindow hbefore c.key hnow
  rw [replyAfter_eq hwindow hordered]
  split
  · next hfull => exact ⟨fun _ => le_antisymm hle hfull, fun _ => rfl⟩
  · next hfree => exact ⟨fun h => (by cases h), fun h => absurd h.ge hfree⟩

/-- A client that waits as told is admitted exactly where the wait is not cut short. -/
theorem served_iff (hlimit : 0 < limiter.limit) (hordered : Ordered start (before ++ [c]))
    (hrefused : (limiter.replyAfter before c).allowed = false) : limiter.Served before c ↔ limiter.Whole before c := by
  have hfull := (refused_iff hwindow hordered).mp hrefused
  have hreply := replyAfter_eq hwindow hordered
  rw [if_pos hfull.ge] at hreply
  obtain ⟨oldest, rest, hcounted⟩ := exists_cons_of_length_pos (hfull.symm ▸ hlimit)
  rw [hcounted, List.head?_cons, Option.getD_some] at hreply
  obtain ⟨hbefore, hnow, -⟩ := ordered_append.mp hordered
  have hwait : 0 ≤ ((limiter.replyAfter before c).retryAfter : ℚ) := by
    rw [hreply]
    exact_mod_cast Int.floor_nonneg.mpr (le_trans zero_le_one (le_max_left 1 _))
  set later := c.now + ((limiter.replyAfter before c).retryAfter : ℚ) with hlater
  have hcall : ∀ others : List RateCall, (∀ o ∈ others, o.key ≠ c.key) → Ordered c.now (others ++ [⟨c.key, later⟩]) →
      ((limiter.replyAfter (before ++ c :: others) ⟨c.key, later⟩).allowed ↔ oldest ≤ later - limiter.windowS) := by
    intro others hothers hothersOrdered
    have hall : Ordered start (before ++ c :: others ++ [⟨c.key, later⟩]) := by
      rw [append_assoc]
      exact ordered_append.mpr ⟨hbefore, hnow, hothersOrdered⟩
    have htimes : (limiter.answer {} (before ++ c :: others)).2.times c.key = (limiter.answer {} before).2.times c.key := by
      rw [answer_append, answer]
      dsimp only
      rw [times_others others hothers, times_allow, if_neg]
      intro hadmitted
      have hallowed : (limiter.replyAfter before c).allowed = true := hadmitted.2
      rw [hrefused] at hallowed
      cases hallowed
    have hsub : limiter.counted (before ++ c :: others) c.key later =
        (oldest :: rest).filter fun t => later - limiter.windowS < t := by
      rw [← hcounted, counted, counted, htimes, recent, recent, List.filter_filter]
      refine filter_congr fun t _ => ?_
      have himp : later - limiter.windowS < t → c.now - limiter.windowS < t := fun h => by linarith
      simpa using himp
    have hsorted : (oldest :: rest).Pairwise (· ≤ ·) := by
      rw [← hcounted]
      exact (windows_answer hwindow hbefore c.key).sorted.filter _
    have hrefusedLater := refused_iff hwindow hall
    dsimp only at hrefusedLater
    rw [hsub, ← hfull, hcounted] at hrefusedLater
    rw [← Bool.not_eq_false, hrefusedLater, length_filter_eq_length_iff, not_iff_comm, not_le]
    constructor
    · intro hearly t ht
      refine decide_eq_true ?_
      obtain rfl | ht := mem_cons.mp ht
      · exact hearly
      · exact hearly.trans_le (rel_of_pairwise_cons hsorted ht)
    · exact fun hlate => of_decide_eq_true (hlate oldest mem_cons_self)
  have hserved : limiter.Served before c ↔ oldest ≤ later - limiter.windowS := by
    constructor
    · intro h
      have halone : Ordered c.now ([] ++ [(⟨c.key, later⟩ : RateCall)]) := ⟨le_add_of_nonneg_right hwait, trivial⟩
      exact (hcall [] (fun o ho => absurd ho not_mem_nil) halone).mp (h [] (fun o ho => absurd ho not_mem_nil) halone)
    · exact fun h others hothers hothersOrdered => (hcall others hothers hothersOrdered).mpr h
  have hretry : ((limiter.replyAfter before c).retryAfter : ℚ) = ⌊max 1 (oldest + limiter.windowS - c.now)⌋ := by
    rw [hreply]
    have hsame : limiter.windowS - (c.now - oldest) = oldest + limiter.windowS - c.now := by ring
    rw [hsame]
  rw [hserved, Whole, hcounted]
  have hdue : oldest ≤ later - limiter.windowS ↔
      oldest + limiter.windowS - c.now ≤ ⌊max 1 (oldest + limiter.windowS - c.now)⌋ := by
    rw [← hretry, hlater]
    constructor <;> intro h <;> linarith
  rw [hdue]
  constructor
  · intro h first hfirst
    obtain rfl := Option.some.inj hfirst
    by_cases hone : oldest + limiter.windowS - c.now ≤ 1
    · exact Or.inl hone
    · rw [max_eq_right (not_le.mp hone).le] at h
      exact Or.inr ⟨_, le_antisymm h (Int.floor_le _)⟩
  · intro h
    obtain hone | ⟨n, hn⟩ := h oldest rfl
    · rw [max_eq_left hone, Int.floor_one]
      exact_mod_cast hone
    · by_cases hone : oldest + limiter.windowS - c.now ≤ 1
      · rw [max_eq_left hone, Int.floor_one]
        exact_mod_cast hone
      · rw [max_eq_right (not_le.mp hone).le, hn, Int.floor_intCast]

end

end Runs

/-- What is to hold of a run of calls. -/
structure Laws (limiter : RateLimiter) (start : ℚ) (calls : List RateCall) : Prop where
  bounded : ∀ key from', within limiter.windowS from' ((limiter.answer {} calls).2.times key) ≤ limiter.limit ∧
    (((limiter.answer {} calls).2.times key).countP fun t => from' < t ∧ t ≤ from' + limiter.windowS) ≤ limiter.limit
  refused : ∀ before c after, calls = before ++ c :: after → (limiter.replyAfter before c).allowed = false →
    (limiter.counted before c.key c.now).length = limiter.limit
  undelayed : ∀ before c after, calls = before ++ c :: after → (limiter.replyAfter before c).allowed = false →
    (limiter.answer (limiter.answer {} (before ++ [c])).2 after).1 = (limiter.answer (limiter.answer {} before).2 after).1
  remaining : ∀ before c after, calls = before ++ c :: after →
    (limiter.replyAfter before c).remaining + (limiter.counted (before ++ [c]) c.key c.now).length = limiter.limit
  served : ∀ before c after, calls = before ++ c :: after → (limiter.replyAfter before c).allowed = false →
    limiter.Served before c

theorem counted_concat (hwindow : 0 < limiter.windowS) (before : List RateCall) (c : RateCall) :
    limiter.counted (before ++ [c]) c.key c.now = if (limiter.replyAfter before c).allowed then
      limiter.counted before c.key c.now ++ [c.now] else limiter.counted before c.key c.now := by
  rw [counted, answer_append, answer, answer]
  dsimp only
  rw [times_allow]
  simp only [true_and]
  rw [replyAfter]
  split
  · rw [recent, filter_append, filter_cons_of_pos (by simpa using hwindow), filter_nil]
    rfl
  · rfl

/-- The laws of the limiter hold of a run exactly when each refused call comes a whole number of seconds, or at most one,
before the oldest admission leaves the window. -/
theorem limiter_laws_iff (limit : Int) (windowS : ℚ) (hwindow : 0 < windowS) (start : ℚ) (calls : List RateCall)
    (hordered : Ordered start calls) : Laws (create limit windowS) start calls ↔
      ∀ before c after, calls = before ++ c :: after → ((create limit windowS).replyAfter before c).allowed = false →
        Whole (create limit windowS) before c := by
  have hlimit : 0 < (create limit windowS).limit := by
    rw [create]
    dsimp only
    omega
  have hbeforeCall : ∀ before c after, calls = before ++ c :: after → Ordered start (before ++ [c]) := by
    rintro before c after rfl
    obtain ⟨hbefore, hnow, -⟩ := ordered_append.mp hordered
    exact ordered_append.mpr ⟨hbefore, hnow, trivial⟩
  constructor
  · exact fun h before c after hcalls hrefused =>
      (served_iff hwindow hlimit (hbeforeCall before c after hcalls) hrefused).mp (h.served before c after hcalls hrefused)
  · intro h
    refine ⟨fun key from' => ?_, fun before c after hcalls hrefused => ?_, fun before c after hcalls hrefused => ?_,
      fun before c after hcalls => ?_, fun before c after hcalls hrefused => ?_⟩
    · have htracks := @windows_answer (create limit windowS) start calls hwindow hordered key
      exact ⟨htracks.bounded from', htracks.bounded_right from'⟩
    · exact (refused_iff hwindow (hbeforeCall before c after hcalls)).mp hrefused
    · obtain ⟨hbefore, hnow, -⟩ := ordered_append.mp (hbeforeCall before c after hcalls)
      rw [hcalls] at hordered
      obtain ⟨-, -, hafter⟩ := ordered_append.mp hordered
      have hwindows := @windows_answer (create limit windowS) start before hwindow hbefore
      rw [answer_append]
      refine answer_congr hwindow after (Windows.later (fun key => hwindows key) hnow)
        (Windows.allow (fun key => hwindows key) hwindow hnow) ?_ hafter
      change (if (replyAfter (create limit windowS) before c).allowed then _ else _) = _
      rw [hrefused]
      rfl
    · have hbefore := hbeforeCall before c after hcalls
      rw [counted_concat hwindow, replyAfter_eq hwindow hbefore]
      split
      · next hfull =>
        have hle := @length_counted_le (create limit windowS) start before hwindow (ordered_append.mp hbefore).1 c.key c.now
          (ordered_append.mp hbefore).2.1
        simp only [Bool.false_eq_true, if_false]
        omega
      · simp only [if_true, length_append, length_singleton]
        omega
    · exact (served_iff hwindow hlimit (hbeforeCall before c after hcalls) hrefused).mpr (h before c after hcalls hrefused)

/-! One call a minute, asked again after half a second. -/

def halfSecond : List RateCall := [⟨"ip", 0⟩, ⟨"ip", 1 / 2⟩]

theorem halfSecond_ordered : Ordered 0 halfSecond := ⟨le_refl 0, by norm_num, trivial⟩

theorem halfSecond_laws : Laws (create 1 60) 0 halfSecond ↔
    ∀ before c after, halfSecond = before ++ c :: after → ((create 1 60).replyAfter before c).allowed = false →
      Whole (create 1 60) before c :=
  limiter_laws_iff 1 60 (by norm_num) 0 halfSecond halfSecond_ordered

/-- The client is told to wait 59 seconds, where the window frees its place in 59 and a half. -/
theorem halfSecond_refused : ((create 1 60).replyAfter [⟨"ip", 0⟩] ⟨"ip", 1 / 2⟩) = ⟨false, 0, 59⟩ ∧
    ¬Laws (create 1 60) 0 halfSecond := by
  have hreply : (create 1 60).replyAfter [⟨"ip", 0⟩] ⟨"ip", 1 / 2⟩ = ⟨false, 0, 59⟩ := by decide +kernel
  refine ⟨hreply, fun h => ?_⟩
  have hrefused : ((create 1 60).replyAfter [⟨"ip", 0⟩] ⟨"ip", 1 / 2⟩).allowed = false := by rw [hreply]
  have hserved := h.served [⟨"ip", 0⟩] ⟨"ip", 1 / 2⟩ [] rfl hrefused
  have hwhole := (@served_iff (create 1 60) 0 [⟨"ip", 0⟩] ⟨"ip", 1 / 2⟩ (by norm_num [create]) (by decide)
    halfSecond_ordered hrefused).mp hserved 0 (by decide +kernel)
  obtain hone | ⟨n, hn⟩ := hwhole
  · norm_num [create] at hone
  · have htwice : (119 : ℚ) = 2 * n := by
      rw [← hn]
      norm_num [create]
    have hodd : (119 : ℤ) = 2 * n := by exact_mod_cast htwice
    omega

end RateLimiter
end SelericSwarm.Api
