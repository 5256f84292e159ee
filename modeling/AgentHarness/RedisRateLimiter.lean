import AgentHarness.RateLimiter
import AgentHarness.Lib.Text
import Mathlib.Data.Rat.Floor
import Std.Data.String.ToInt

/-!
# RedisRateLimiter — a counter for every bucket of the clock

The limiter counts the calls on a key in the bucket of the clock that they fall in, with `INCR` and `EXPIRE`,
and asks the limiter in memory where Redis fails.  The counters do not know of each other: within a bucket
Redis admits at most the capacity, and so does the memory in a window, but a window may meet two buckets and
calls that the memory has answered.
-/

namespace AgentHarness

open Lib

/-! ## Redis -/

structure RedisEntry where
  count : Int
  expireAt : Option Rat

abbrev RedisStore := String → Option RedisEntry

namespace RedisStore

/-- What a key holds at the time `now`. -/
def live (r : RedisStore) (now : Rat) (key : String) : Option RedisEntry :=
  (r key).filter fun e => e.expireAt.all fun t => now < t

/-- `INCR`; it keeps the time that the key expires at. -/
def incr (r : RedisStore) (now : Rat) (key : String) : Int × RedisStore :=
  let e := (r.live now key).getD ⟨0, none⟩
  (e.count + 1, Function.update r key (some { e with count := e.count + 1 }))

/-- `EXPIRE`; no time left deletes the key. -/
def expire (r : RedisStore) (now : Rat) (key : String) (seconds : Int) : RedisStore :=
  Function.update r key
    (if seconds ≤ 0 then none else (r.live now key).map fun e => { e with expireAt := some (now + seconds) })

def empty : RedisStore := fun _ => none

end RedisStore

/-- Where Redis fails in a call.  A command that fails may have been carried out. -/
inductive RedisFault where
  | noop
  | incr (applied : Bool)
  | expire (applied : Bool)
deriving DecidableEq

/-- One call of `allow`: the reading of the clock, and the one that the fallback takes. -/
structure RedisCall where
  key : String
  now : Rat
  fallbackNow : Rat
  fault : Option RedisFault

structure RedisLimiter where
  redis : RedisStore
  memory : RateRequests

/-- What a call ends with: an answer, or the division by `window_seconds`. -/
inductive RedisAnswer where
  | redis (allowed : Bool) (retryAfter : Int)
  | memory (allowed : Bool) (retryAfter : Int)
  | zeroDivision

namespace RedisRateLimiter

variable (l : Limits)

def bucket (now : Rat) : Int := ⌊now / l.windowSeconds⌋

/-- `f"rate_limit:{bucket}:{key}"` -/
def redisKey (bucket : Int) (key : String) : String := "rate_limit:" ++ toString bucket ++ ":" ++ key

/-- The commands of a call: the count, or nothing where one of them failed. -/
def counted (r : RedisStore) (c : RedisCall) : Option Int × RedisStore :=
  let k := redisKey (bucket l c.now) c.key
  let (count, r') := r.incr c.now k
  match c.fault with
  | some .noop => (none, r)
  | some (.incr applied) => (none, if applied then r' else r)
  | some (.expire applied) =>
    if count = 1 then (none, if applied then r'.expire c.now k l.windowSeconds else r') else (some count, r')
  | none => (some count, if count = 1 then r'.expire c.now k l.windowSeconds else r')

def fallback (s : RedisLimiter) (c : RedisCall) : RedisAnswer × RedisLimiter :=
  let (answer, memory) := InMemoryRateLimiter.allow l s.memory ⟨c.key, c.fallbackNow⟩
  (.memory answer.1 answer.2, { s with memory })

def allow (s : RedisLimiter) (c : RedisCall) : RedisAnswer × RedisLimiter :=
  if c.fault = some .noop then fallback l s c
  else if l.windowSeconds = 0 then (.zeroDivision, s)
  else
    match counted l s.redis c with
    | (none, redis) => fallback l { s with redis } c
    | (some count, redis) =>
      let retryAfter := max 1 (truncRat (l.windowSeconds - (c.now - l.windowSeconds * bucket l c.now)))
      (if (l.capacity : Int) < count then .redis false retryAfter else .redis true 0, { s with redis })

/-- An admitted call: when, and in which bucket if it was Redis that admitted it. -/
structure Admission where
  time : Rat
  bucket : Option Int

def admission (c : RedisCall) : RedisAnswer → Option Admission
  | .redis true _ => some ⟨c.now, some (bucket l c.now)⟩
  | .memory true _ => some ⟨c.fallbackNow, none⟩
  | _ => none

/-- What is admitted on a key along a history of calls. -/
def admissions (key : String) (s : RedisLimiter) : List RedisCall → List Admission
  | [] => []
  | c :: cs =>
    (if c.key = key then (admission l c (allow l s c).1).toList else []) ++ admissions key (allow l s c).2 cs

/-- The times of the admitted calls on a key. -/
def admittedTimes (key : String) (s : RedisLimiter) (calls : List RedisCall) : List Rat :=
  (admissions l key s calls).map Admission.time

end RedisRateLimiter

/-- A process and a Redis that have served no call. -/
def RedisLimiter.empty : RedisLimiter := ⟨.empty, .empty⟩

namespace RedisRateLimiter

variable {l : Limits} {s : RedisLimiter} {r r' : RedisStore} {c : RedisCall} {calls : List RedisCall}
  {key k k' : String} {now : Rat} {b b' : Int} {n m : Nat} {past : List Admission}

/-! ## Keys -/

theorem colon_notMem_toString (b : Int) : ':' ∉ (toString b).toList := by
  have hdigits : ∀ n : Nat, ':' ∉ n.repr.toList := by
    intro n h
    rw [Nat.toList_repr] at h
    have hdigit : (':').isDigit = true := Nat.isDigit_of_mem_toDigits (by decide) (by decide) h
    exact absurd hdigit (by decide)
  rw [Int.toString_eq_repr]
  cases b with
  | ofNat n => simpa [Int.repr] using hdigits n
  | negSucc n => simpa [Int.repr] using hdigits (n + 1)

/-- Each bucket of each key has a counter of its own. -/
theorem redisKey_inj (h : redisKey b k = redisKey b' k') : b = b' ∧ k = k' := by
  have hlist : (toString b).toList ++ ':' :: k.toList = (toString b').toList ++ ':' :: k'.toList := by
    have := congrArg String.toList h
    simpa [redisKey, String.toList_append] using this
  obtain ⟨hb, hk⟩ := append_cons_inj (colon_notMem_toString b) (colon_notMem_toString b') hlist
  refine ⟨?_, String.toList_inj.mp hk⟩
  have hb := String.toList_inj.mp hb
  rw [Int.toString_eq_repr, Int.toString_eq_repr] at hb
  exact Int.repr_injective hb

/-! ## The counter of a bucket -/

/-- The counter has counted the `n` calls, and does not expire before the bucket is over. -/
def Counts (l : Limits) (b : Int) (n : Nat) : Option RedisEntry → Prop
  | none => n = 0
  | some e => (n : Int) ≤ e.count ∧ ∀ t ∈ e.expireAt, (b + 1) * (l.windowSeconds : Rat) ≤ t

theorem Counts.mono {o : Option RedisEntry} (h : Counts l b n o) (hm : m ≤ n) : Counts l b m o := by
  cases o with
  | none =>
    have h : n = 0 := h
    show m = 0
    omega
  | some e =>
    obtain ⟨hn, hexp⟩ := h
    exact ⟨by omega, hexp⟩

/-- Within its bucket the counter is live. -/
theorem Counts.live (h : Counts l b n (r k)) (hnow : now < (b + 1) * (l.windowSeconds : Rat)) :
    r.live now k = r k := by
  unfold RedisStore.live
  cases hk : r k with
  | none => rfl
  | some e =>
    rw [hk] at h
    have hlive : e.expireAt.all fun t => now < t := by
      rw [Option.all_eq_true]
      intro t ht
      have := h.2 t ht
      simpa using lt_of_lt_of_le hnow this
    rw [Option.filter_some, if_pos hlive]

theorem Counts.incr (h : Counts l b n (r k)) (hnow : now < (b + 1) * (l.windowSeconds : Rat)) :
    Counts l b (n + 1) ((r.incr now k).2 k) ∧ (n + 1 : Int) ≤ (r.incr now k).1 := by
  unfold RedisStore.incr
  rw [h.live hnow]
  simp only [Function.update_self]
  cases hk : r k with
  | none =>
    rw [hk] at h
    have h : n = 0 := h
    subst h
    exact ⟨⟨by simp, by simp⟩, by simp⟩
  | some e =>
    rw [hk] at h
    obtain ⟨hn, hexp⟩ := h
    refine ⟨⟨?_, hexp⟩, ?_⟩
    · simp only [Option.getD_some]
      omega
    · simp only [Option.getD_some]
      omega

theorem Counts.expire (h : Counts l b n (r k)) (hw : 0 < l.windowSeconds)
    (hfrom : b * (l.windowSeconds : Rat) ≤ now) (hnow : now < (b + 1) * (l.windowSeconds : Rat)) :
    Counts l b n ((r.expire now k l.windowSeconds) k) := by
  unfold RedisStore.expire
  rw [Function.update_self, if_neg (by omega), h.live hnow]
  cases hk : r k with
  | none => rw [hk] at h; exact h
  | some e =>
    rw [hk] at h
    refine ⟨h.1, fun t ht => ?_⟩
    obtain rfl : now + l.windowSeconds = t := by simpa using ht
    linarith

theorem incr_ne (h : k' ≠ k) : (r.incr now k).2 k' = r k' := Function.update_of_ne h _ _

theorem expire_ne {seconds : Int} (h : k' ≠ k) : (r.expire now k seconds) k' = r k' := Function.update_of_ne h _ _

theorem bucket_le (hw : 0 < l.windowSeconds) : (bucket l now : Rat) * l.windowSeconds ≤ now := by
  have hw : (0 : Rat) < l.windowSeconds := by exact_mod_cast hw
  exact (le_div_iff₀ hw).mp (Int.floor_le _)

theorem lt_bucket (hw : 0 < l.windowSeconds) : now < (bucket l now + 1) * (l.windowSeconds : Rat) := by
  have hw : (0 : Rat) < l.windowSeconds := by exact_mod_cast hw
  exact (div_lt_iff₀ hw).mp (Int.lt_floor_add_one _)

/-- **The commands of a call.**  They touch the counter of its bucket alone, and the count includes the call. -/
theorem counted_spec (hw : 0 < l.windowSeconds) :
    (∀ k', k' ≠ redisKey (bucket l c.now) c.key → (counted l r c).2 k' = r k') ∧
    (Counts l (bucket l c.now) n (r (redisKey (bucket l c.now) c.key)) →
      Counts l (bucket l c.now) n ((counted l r c).2 (redisKey (bucket l c.now) c.key)) ∧
      ∀ count, (counted l r c).1 = some count →
        Counts l (bucket l c.now) (n + 1) ((counted l r c).2 (redisKey (bucket l c.now) c.key)) ∧
        (n + 1 : Int) ≤ count) := by
  have hfrom : (bucket l c.now : Rat) * l.windowSeconds ≤ c.now := bucket_le hw
  have hnow : c.now < (bucket l c.now + 1) * (l.windowSeconds : Rat) := lt_bucket hw
  unfold counted
  generalize redisKey (bucket l c.now) c.key = k
  generalize bucket l c.now = b at hfrom hnow
  dsimp only
  constructor
  · intro k' hk'
    rcases c.fault with _ | _ | applied | applied
    · dsimp only
      split
      · rw [expire_ne hk', incr_ne hk']
      · exact incr_ne hk'
    · rfl
    · cases applied
      · rfl
      · exact incr_ne hk'
    · dsimp only
      split
      · cases applied
        · exact incr_ne hk'
        · exact (expire_ne hk').trans (incr_ne hk')
      · exact incr_ne hk'
  · intro h
    obtain ⟨hincr, hcount⟩ := h.incr hnow
    have hkept : Counts l b n ((r.incr c.now k).2 k) := hincr.mono (Nat.le_succ n)
    rcases c.fault with _ | _ | applied | applied
    · dsimp only
      split
      · have hexp := hincr.expire hw hfrom hnow
        refine ⟨hexp.mono (Nat.le_succ n), fun count hc => ?_⟩
        obtain rfl := Option.some.inj hc
        exact ⟨hexp, hcount⟩
      · refine ⟨hkept, fun count hc => ?_⟩
        obtain rfl := Option.some.inj hc
        exact ⟨hincr, hcount⟩
    · exact ⟨h, fun _ hc => absurd hc (by simp)⟩
    · refine ⟨?_, fun _ hc => absurd hc (by simp)⟩
      cases applied
      · exact h
      · exact hkept
    · dsimp only
      split
      · refine ⟨?_, fun _ hc => absurd hc (by simp)⟩
        cases applied
        · exact hkept
        · exact hkept.expire hw hfrom hnow
      · refine ⟨hkept, fun count hc => ?_⟩
        obtain rfl := Option.some.inj hc
        exact ⟨hincr, hcount⟩

/-! ## One call -/

/-- What a call does, in three cases. -/
theorem allow_cases :
    (∃ r, allow l s c = fallback l { s with redis := r } c ∧
      (r = s.redis ∨ l.windowSeconds ≠ 0 ∧ r = (counted l s.redis c).2)) ∨
    (l.windowSeconds = 0 ∧ allow l s c = (.zeroDivision, s)) ∨
    ∃ count r retryAfter, l.windowSeconds ≠ 0 ∧ counted l s.redis c = (some count, r) ∧
      allow l s c =
        (if (l.capacity : Int) < count then .redis false retryAfter else .redis true 0, { s with redis := r }) := by
  unfold allow
  by_cases hnoop : c.fault = some .noop
  · rw [if_pos hnoop]
    exact .inl ⟨s.redis, rfl, .inl rfl⟩
  · rw [if_neg hnoop]
    by_cases hw : l.windowSeconds = 0
    · rw [if_pos hw]
      exact .inr (.inl ⟨hw, rfl⟩)
    · rw [if_neg hw]
      rcases hcounted : counted l s.redis c with ⟨_ | count, r⟩
      · exact .inl ⟨r, rfl, .inr ⟨hw, rfl⟩⟩
      · exact .inr (.inr ⟨count, r, _, hw, rfl, rfl⟩)

def inBucket (b : Int) (past : List Admission) : List Admission := past.filter fun a => a.bucket = some b

/-- The times of what the memory has admitted. -/
def inMemory (past : List Admission) : List Rat := (past.filter fun a => a.bucket = none).map Admission.time

theorem inBucket_append {past' : List Admission} : inBucket b (past ++ past') = inBucket b past ++ inBucket b past' :=
  List.filter_append ..

theorem inMemory_append {past' : List Admission} : inMemory (past ++ past') = inMemory past ++ inMemory past' := by
  unfold inMemory
  rw [List.filter_append, List.map_append]

/-- The admission of a call to a key, as a list. -/
def admitted (l : Limits) (key : String) (s : RedisLimiter) (c : RedisCall) : List Admission :=
  if c.key = key then (admission l c (allow l s c).1).toList else []

theorem admissions_cons {cs : List RedisCall} :
    admissions l key s (c :: cs) = admitted l key s c ++ admissions l key (allow l s c).2 cs := rfl

/-- What the memory knows at the time `now`. -/
structure MemoryInv (l : Limits) (key : String) (now : Rat) (s : RedisLimiter) (past : List Admission) : Prop where
  agree : InMemoryRateLimiter.AgreeOn l now (s.memory key) (inMemory past)
  bounded : WindowBounded (l.windowSeconds : Rat) l.capacity (inMemory past)

theorem MemoryInv.later {now' : Rat} (h : MemoryInv l key now s past) (hle : now ≤ now') :
    MemoryInv l key now' s past := ⟨h.agree.later hle, h.bounded⟩

theorem MemoryInv.silent {s' : RedisLimiter} {past' : List Admission} (h : MemoryInv l key now s past)
    (hmem : s'.memory = s.memory) (hpast : inMemory past' = []) : MemoryInv l key now s' (past ++ past') := by
  constructor
  · rw [hmem, inMemory_append, hpast, List.append_nil]
    exact h.agree
  · rw [inMemory_append, hpast, List.append_nil]
    exact h.bounded

/-- A call that the memory answers. -/
theorem MemoryInv.fallback (h : MemoryInv l key c.fallbackNow s past) :
    MemoryInv l key c.fallbackNow (fallback l s c).2
      (past ++ if c.key = key then (admission l c (fallback l s c).1).toList else []) := by
  by_cases hkey : c.key = key
  · subst hkey
    rw [if_pos rfl]
    have hleft := InMemoryRateLimiter.allowHits_agree h.agree
    have hadmits := @InMemoryRateLimiter.allowHits_admits l c.fallbackNow (s.memory c.key)
    have hstate : (RedisRateLimiter.fallback l s c).2.memory c.key =
        (InMemoryRateLimiter.allowHits l c.fallbackNow (s.memory c.key)).2 := InMemoryRateLimiter.allow_key
    have hanswer : (RedisRateLimiter.fallback l s c).1 =
        .memory (InMemoryRateLimiter.allowHits l c.fallbackNow (s.memory c.key)).1.1
          (InMemoryRateLimiter.allowHits l c.fallbackNow (s.memory c.key)).1.2 := rfl
    rw [hanswer]
    rcases hadm : (InMemoryRateLimiter.allowHits l c.fallbackNow (s.memory c.key)).1 with ⟨_ | _, retryAfter⟩
    · rw [hadm] at hleft
      constructor
      · rw [hstate]
        simpa [admission] using hleft
      · simpa [admission] using h.bounded
    · rw [hadm] at hleft hadmits
      have hmem : inMemory [⟨c.fallbackNow, none⟩] = [c.fallbackNow] := rfl
      constructor
      · rw [hstate, inMemory_append]
        exact hleft
      · rw [inMemory_append]
        refine h.bounded.concat ?_
        rw [← h.agree]
        exact hadmits.mp rfl
  · rw [if_neg hkey, List.append_nil]
    have hother : (RedisRateLimiter.fallback l s c).2.memory key = s.memory key := InMemoryRateLimiter.allow_ne hkey
    refine ⟨?_, h.bounded⟩
    rw [hother]
    exact h.agree

theorem MemoryInv.allow (h : MemoryInv l key c.fallbackNow s past) :
    MemoryInv l key c.fallbackNow (allow l s c).2 (past ++ admitted l key s c) := by
  unfold admitted
  rcases @allow_cases l s c with ⟨r, hallow, -⟩ | ⟨-, hallow⟩ | ⟨count, r, retryAfter, -, -, hallow⟩
  · rw [hallow]
    exact MemoryInv.fallback (s := { s with redis := r }) ⟨h.agree, h.bounded⟩
  · rw [hallow]
    refine h.silent rfl ?_
    split <;> rfl
  · rw [hallow]
    refine h.silent rfl ?_
    split
    · split <;> rfl
    · rfl

/-- What Redis knows of a key. -/
structure RedisInv (l : Limits) (key : String) (s : RedisLimiter) (past : List Admission) : Prop where
  counts : ∀ b, Counts l b (inBucket b past).length (s.redis (redisKey b key))
  capped : ∀ b, (inBucket b past).length ≤ l.capacity

/-- The commands of a call keep what Redis knows, and count the call if it is one on the key. -/
theorem RedisInv.counted (h : RedisInv l key s past) (hw : 0 < l.windowSeconds) :
    RedisInv l key { s with redis := (counted l s.redis c).2 } past := by
  refine ⟨fun b => ?_, h.capped⟩
  obtain ⟨hframe, hcounts⟩ := @counted_spec l s.redis c (inBucket b past).length hw
  by_cases hk : redisKey b key = redisKey (bucket l c.now) c.key
  · obtain ⟨rfl, rfl⟩ := redisKey_inj hk
    exact (hcounts (h.counts _)).1
  · show Counts l b _ ((RedisRateLimiter.counted l s.redis c).2 (redisKey b key))
    rw [hframe _ hk]
    exact h.counts b

theorem RedisInv.silent {s' : RedisLimiter} {past' : List Admission} (h : RedisInv l key s past)
    (hredis : s'.redis = s.redis) (hpast : ∀ b, inBucket b past' = []) : RedisInv l key s' (past ++ past') := by
  constructor
  · intro b
    rw [hredis, inBucket_append, hpast, List.append_nil]
    exact h.counts b
  · intro b
    rw [inBucket_append, hpast, List.append_nil]
    exact h.capped b

theorem RedisInv.admits {count : Int} (h : RedisInv l c.key s past) (hw : 0 < l.windowSeconds)
    (hcount : (RedisRateLimiter.counted l s.redis c).1 = some count) (hle : count ≤ l.capacity) :
    RedisInv l c.key { s with redis := (RedisRateLimiter.counted l s.redis c).2 }
      (past ++ [⟨c.now, some (bucket l c.now)⟩]) := by
  have hkeep := h.counted (c := c) hw
  have hone : ∀ b, (inBucket b [⟨c.now, some (bucket l c.now)⟩]).length = if bucket l c.now = b then 1 else 0 := by
    intro b
    by_cases hb : bucket l c.now = b <;> simp [inBucket, hb]
  have hnew := ((@counted_spec l s.redis c (inBucket (bucket l c.now) past).length hw).2 (h.counts _)).2 count hcount
  constructor
  · intro b
    rw [inBucket_append, List.length_append, hone]
    by_cases hb : bucket l c.now = b
    · subst hb
      rw [if_pos rfl]
      exact hnew.1
    · rw [if_neg hb]
      exact hkeep.counts b
  · intro b
    rw [inBucket_append, List.length_append, hone]
    by_cases hb : bucket l c.now = b
    · subst hb
      rw [if_pos rfl]
      have := hnew.2
      omega
    · rw [if_neg hb]
      exact h.capped b

theorem RedisInv.allow (h : RedisInv l key s past) (hw : 0 < l.windowSeconds) :
    RedisInv l key (allow l s c).2 (past ++ admitted l key s c) := by
  unfold admitted
  rcases @allow_cases l s c with ⟨r, hallow, hr⟩ | ⟨hzero, -⟩ | ⟨count, r, retryAfter, -, hcounted, hallow⟩
  · rw [hallow]
    have hstate : RedisInv l key { s with redis := r } past := by
      rcases hr with rfl | ⟨-, rfl⟩
      · exact h
      · exact h.counted hw
    have hpast : ∀ b, inBucket b
        (if c.key = key then (admission l c (fallback l { s with redis := r } c).1).toList else []) = [] := by
      intro b
      split
      · unfold fallback
        dsimp only
        cases (InMemoryRateLimiter.allow l s.memory ⟨c.key, c.fallbackNow⟩).1.1 <;> rfl
      · rfl
    exact hstate.silent rfl hpast
  · omega
  · rw [hallow]
    have hkeep := h.counted (c := c) hw
    rw [hcounted] at hkeep
    by_cases hkey : c.key = key
    · subst hkey
      rw [if_pos rfl]
      by_cases hcap : (l.capacity : Int) < count
      · rw [if_pos hcap]
        exact hkeep.silent rfl fun _ => rfl
      · rw [if_neg hcap]
        have hcount : (RedisRateLimiter.counted l s.redis c).1 = some count := by rw [hcounted]
        have hadmits := h.admits hw hcount (by omega)
        rw [hcounted] at hadmits
        exact hadmits
    · rw [if_neg hkey]
      exact hkeep.silent rfl fun _ => rfl

/-! ## A history of calls -/

/-- The clock does not go back, from one reading to the next. -/
def Clocked (calls : List RedisCall) : Prop :=
  (∀ c ∈ calls, c.now ≤ c.fallbackNow) ∧ calls.Pairwise fun c c' => c.fallbackNow ≤ c'.now

theorem inMemory_bounded (hclock : Clocked calls) (hlater : ∀ c ∈ calls, now ≤ c.now)
    (h : MemoryInv l key now s past) :
    WindowBounded (l.windowSeconds : Rat) l.capacity (inMemory (past ++ admissions l key s calls)) := by
  induction calls generalizing s past now with
  | nil =>
    rw [admissions, List.append_nil]
    exact h.bounded
  | cons c cs ih =>
    obtain ⟨hwithin, hafter⟩ := hclock
    obtain ⟨hfirst, hafter⟩ := List.pairwise_cons.mp hafter
    have hnow : now ≤ c.fallbackNow := (hlater c List.mem_cons_self).trans (hwithin c List.mem_cons_self)
    rw [admissions_cons, ← List.append_assoc]
    exact ih ⟨fun c hc => hwithin c (List.mem_cons_of_mem _ hc), hafter⟩ hfirst (h.later hnow).allow

theorem inBucket_capped (hw : 0 < l.windowSeconds) (h : RedisInv l key s past) (b : Int) :
    (inBucket b (past ++ admissions l key s calls)).length ≤ l.capacity := by
  induction calls generalizing s past with
  | nil =>
    rw [admissions, List.append_nil]
    exact h.capped b
  | cons c cs ih =>
    rw [admissions_cons, ← List.append_assoc]
    exact ih (h.allow hw)

/-- What holds of the admission of every call holds of all admissions. -/
theorem forall_admissions {P : Admission → Prop} (h : ∀ s, ∀ c ∈ calls, ∀ a ∈ admission l c (allow l s c).1, P a) :
    ∀ a ∈ admissions l key s calls, P a := by
  induction calls generalizing s with
  | nil => intro a ha; cases ha
  | cons c cs ih =>
    intro a ha
    rw [admissions_cons] at ha
    rcases List.mem_append.mp ha with ha | ha
    · unfold admitted at ha
      split at ha
      · exact h s c List.mem_cons_self a (by simpa using ha)
      · cases ha
    · exact ih (fun s c hc => h s c (List.mem_cons_of_mem _ hc)) a ha

/-- Redis admits a call in the bucket of its time. -/
theorem bucket_of_admission {a : Admission} (ha : a ∈ admission l c (allow l s c).1) (hb : a.bucket = some b) :
    b = bucket l a.time ∧ l.windowSeconds ≠ 0 := by
  rcases @allow_cases l s c with ⟨r, hallow, -⟩ | ⟨-, hallow⟩ | ⟨count, r, retryAfter, hw, -, hallow⟩
  · rw [hallow] at ha
    unfold fallback at ha
    dsimp only at ha
    rcases hadm : (InMemoryRateLimiter.allow l s.memory ⟨c.key, c.fallbackNow⟩).1 with ⟨_ | _, n⟩
    · rw [hadm] at ha
      cases ha
    · rw [hadm] at ha
      obtain rfl := Option.some.inj ha
      cases hb
  · rw [hallow] at ha
    cases ha
  · rw [hallow] at ha
    split at ha
    · cases ha
    · obtain rfl := Option.some.inj ha
      exact ⟨(Option.some.inj hb).symm, hw⟩

/-- Without a fault it is Redis that admits. -/
theorem bucket_of_no_fault {a : Admission} (hc : c.fault = none) (ha : a ∈ admission l c (allow l s c).1) :
    a.bucket ≠ none := by
  unfold allow counted at ha
  simp only [hc, reduceCtorEq, if_false] at ha
  split at ha
  · cases ha
  · dsimp only at ha
    split at ha
    · cases ha
    · obtain rfl := Option.some.inj ha
      exact Option.some_ne_none _

/-- A window holds what two buckets and the memory admit. -/
theorem window_le {adm : List Admission} {w : Rat} {nb nm : Nat} (hw : 0 < w)
    (hplace : ∀ a ∈ adm, ∀ b, a.bucket = some b → b = ⌊a.time / w⌋)
    (hb : ∀ b, (inBucket b adm).length ≤ nb) (hm : WindowBounded w nm (inMemory adm)) :
    WindowBounded w (nm + 2 * nb) (adm.map Admission.time) := by
  intro s
  have hmap : ∀ adm : List Admission, ((adm.map Admission.time).filter fun t => s ≤ t ∧ t ≤ s + w).length =
      (adm.filter fun a => s ≤ a.time ∧ a.time ≤ s + w).length := by
    intro adm
    rw [List.filter_map, List.length_map]
    rfl
  have hmem : (adm.filter fun a => a.bucket = none ∧ s ≤ a.time ∧ a.time ≤ s + w).length ≤ nm := by
    have := hm s
    unfold inMemory at this
    rw [hmap, List.filter_filter] at this
    refine le_trans (le_of_eq ?_) this
    congr 1
    refine List.filter_congr fun a _ => ?_
    simp only [Bool.decide_and]
    rw [Bool.and_comm]
  have hsplit := @length_filter_le_add Admission (fun a => s ≤ a.time ∧ a.time ≤ s + w)
    (fun a => a.bucket = none ∧ s ≤ a.time ∧ a.time ≤ s + w)
    (fun a => a.bucket = some ⌊s / w⌋ ∨ a.bucket = some (⌊s / w⌋ + 1)) _ _ _ adm <| by
      intro a ha ⟨hs, hend⟩
      rcases hbucket : a.bucket with _ | b
      · exact .inl ⟨rfl, hs, hend⟩
      · refine .inr ?_
        obtain rfl := hplace a ha b hbucket
        rcases bucket_of_window hw hs hend with h | h
        · exact .inl (by rw [h])
        · exact .inr (by rw [h])
  have htwo := @length_filter_le_add Admission (fun a => a.bucket = some ⌊s / w⌋ ∨ a.bucket = some (⌊s / w⌋ + 1))
    (fun a => a.bucket = some ⌊s / w⌋) (fun a => a.bucket = some (⌊s / w⌋ + 1)) _ _ _ adm fun _ _ h => h
  have hfirst := hb ⌊s / w⌋
  have hsecond := hb (⌊s / w⌋ + 1)
  unfold inBucket at hfirst hsecond
  rw [hmap]
  omega

theorem memoryInv_empty : MemoryInv l key now .empty [] := ⟨rfl, .nil⟩

theorem redisInv_empty : RedisInv l key .empty [] := ⟨fun _ => rfl, fun _ => Nat.zero_le _⟩

theorem inBucket_capped_empty (hw : 0 < l.windowSeconds) (b : Int) :
    (inBucket b (admissions l key .empty calls)).length ≤ l.capacity := by
  have := @inBucket_capped l .empty calls key [] hw redisInv_empty b
  rwa [List.nil_append] at this

theorem inMemory_bounded_empty (hclock : Clocked calls) :
    WindowBounded (l.windowSeconds : Rat) l.capacity (inMemory (admissions l key .empty calls)) := by
  cases calls with
  | nil => exact .nil
  | cons c cs =>
    have hlater : ∀ c' ∈ c :: cs, c.now ≤ c'.now := by
      intro c' hc'
      rcases List.mem_cons.mp hc' with rfl | hc'
      · exact le_rfl
      · exact (hclock.1 c List.mem_cons_self).trans ((List.pairwise_cons.mp hclock.2).1 c' hc')
    have := @inMemory_bounded l .empty (c :: cs) key c.now [] hclock hlater memoryInv_empty
    rwa [List.nil_append] at this

theorem admitted_window_le {nm : Nat} (hm : WindowBounded (l.windowSeconds : Rat) nm
    (inMemory (admissions l key .empty calls))) :
    WindowBounded (l.windowSeconds : Rat) (nm + 2 * l.capacity) (admittedTimes l key .empty calls) := by
  have hplace : ∀ a ∈ admissions l key .empty calls,
      ∀ b, a.bucket = some b → b = bucket l a.time ∧ l.windowSeconds ≠ 0 :=
    forall_admissions fun s c _ a ha b hb => bucket_of_admission ha hb
  rcases lt_trichotomy l.windowSeconds 0 with hw | hw | hw
  · exact .of_neg (by exact_mod_cast hw)
  · -- Redis has admitted nothing
    have hnone : ∀ a ∈ admissions l key .empty calls, a.bucket = none := by
      intro a ha
      rcases hb : a.bucket with _ | b
      · rfl
      · exact absurd hw (hplace a ha b hb).2
    have hall : inMemory (admissions l key .empty calls) = admittedTimes l key .empty calls := by
      unfold inMemory admittedTimes
      rw [List.filter_eq_self.mpr fun a ha => decide_eq_true (hnone a ha)]
    rw [hall] at hm
    exact fun s => (hm s).trans (Nat.le_add_right _ _)
  · exact window_le (by exact_mod_cast hw) (fun a ha b hb => (hplace a ha b hb).1)
      (fun b => inBucket_capped_empty hw b) hm

/-- **The limiter over Redis.**  For every history with a clock that does not go back, with Redis failing
anywhere: a bucket of the clock holds at most the capacity of calls on a key that Redis has admitted, every
window of the configured length at most the capacity of those that the memory has, and three times the
capacity of both; twice, if Redis does not fail. -/
theorem redis_window_bound (l : Limits) (calls : List RedisCall) (hclock : Clocked calls) (key : String) :
    (0 < l.windowSeconds → ∀ b, (inBucket b (admissions l key .empty calls)).length ≤ l.capacity) ∧
    WindowBounded (l.windowSeconds : Rat) l.capacity (inMemory (admissions l key .empty calls)) ∧
    WindowBounded (l.windowSeconds : Rat) (3 * l.capacity) (admittedTimes l key .empty calls) ∧
    ((∀ c ∈ calls, c.fault = none) →
      WindowBounded (l.windowSeconds : Rat) (2 * l.capacity) (admittedTimes l key .empty calls)) := by
  have hmem := @inMemory_bounded_empty l calls key hclock
  refine ⟨fun hw b => inBucket_capped_empty hw b, hmem, ?_, fun hfault => ?_⟩
  · have := admitted_window_le hmem
    rwa [show l.capacity + 2 * l.capacity = 3 * l.capacity by omega] at this
  · have hnone : inMemory (admissions l key .empty calls) = [] := by
      unfold inMemory
      rw [List.map_eq_nil_iff, List.filter_eq_nil_iff]
      intro a ha
      have := forall_admissions (P := fun a => a.bucket ≠ none)
        (fun s c hc a ha => bucket_of_no_fault (hfault c hc) ha) a ha
      simpa using this
    have hzero : WindowBounded (l.windowSeconds : Rat) 0 (inMemory (admissions l key .empty calls)) := by
      rw [hnone]
      exact .nil
    have := admitted_window_le hzero
    rwa [Nat.zero_add] at this

/-- A minute's end, where one call a minute is allowed: Redis counts the second call in the next bucket, and
the memory knows of neither. -/
def minuteEnd : List RedisCall :=
  [⟨"k", 59, 59, none⟩, ⟨"k", 60, 60, none⟩, ⟨"k", 60, 60, some .noop⟩]

theorem minuteEnd_clocked : Clocked minuteEnd := by
  unfold Clocked minuteEnd
  decide

theorem redis_window_bound_demo : WindowBounded 60 3 (admittedTimes ⟨1, 0, 60⟩ "k" .empty minuteEnd) :=
  (redis_window_bound ⟨1, 0, 60⟩ minuteEnd minuteEnd_clocked "k").2.2.1

/-- Three calls within a second, where the limiter in memory would admit one. -/
theorem redis_exceeds_capacity :
    ¬ ∀ (l : Limits) (calls : List RedisCall), Clocked calls → ∀ key,
      WindowBounded (l.windowSeconds : Rat) l.capacity (admittedTimes l key .empty calls) := by
  intro h
  have hwindow := h ⟨1, 0, 60⟩ minuteEnd minuteEnd_clocked "k" 59
  have htimes : admittedTimes ⟨1, 0, 60⟩ "k" .empty minuteEnd = [59, 60, 60] := by decide +kernel
  rw [htimes] at hwindow
  exact absurd hwindow (by decide +kernel)

end RedisRateLimiter

end AgentHarness
