import AgentHarness.Lib.Interleave

/-!
# Lib.Rely — threads that rely on a shared log

What a thread knows is a part of the log, its own events among them.  A `Contract` says what a thread
guarantees of its next operation, and what it may rely on in an answer, both in terms of the events it
knows.  A program that keeps the contract is checked once, by `wp` on `Contract.machine`.  If every
single operation keeps an invariant of the world under the guarantee, and answers as relied on, then
`run_contract` holds for any number of such programs and every interleaving.

Where a thread needs to know of itself only, but all of it, `Machine.own` has the thread's own events as
its state, and `run_own` is the rule.
-/

namespace AgentHarness.Lib

variable {O : Type} {A : O → Type} {E α β D σ : Type}

structure Contract (O : Type) (A : O → Type) (E : Type) where
  guarantee : List (Ev O A E) → O → Prop
  rely : List (Ev O A E) → (o : O) → Except E (A o) → Prop

/-- Thread `t` under the contract: an answered operation is known from then on, with whatever else has
happened. -/
def Contract.machine (C : Contract O A E) (t : Nat) : Machine O A E (List (Ev O A E)) where
  may := C.guarantee
  step known o r known' := known ⊆ known' ∧ ⟨t, o, r⟩ ∈ known' ∧ C.rely known' o r

variable {C : Contract O A E} {t : Nat} {known : List (Ev O A E)}

/-- What is known stays known. -/
theorem wp_known {p : Prog O A E α} {Q : Except E α → List (Ev O A E) → Prop}
    (h : wp (C.machine t) p Q known) :
    wp (C.machine t) p (fun r known' => Q r known' ∧ known ⊆ known') known := by
  induction p generalizing known with
  | ret a => exact ⟨h, fun _ he => he⟩
  | raise e => exact ⟨h, fun _ he => he⟩
  | op o k ih =>
    refine ⟨h.1, fun r known' hstep => ?_⟩
    refine wp_mono (ih r (h.2 r known' hstep)) ?_
    rintro r' known'' ⟨hQ, hsub⟩
    exact ⟨hQ, fun _ he => hsub (hstep.1 he)⟩

/-- A program of operations that are guaranteed in any case. -/
theorem wp_free {P : O → Prop} (hP : ∀ o, P o → ∀ known, C.guarantee known o) {p : Prog O A E α}
    (hu : p.Uses P) : wp (C.machine t) p (fun _ known' => known ⊆ known') known := by
  have h : wp (C.machine t) p (fun _ _ => True) known :=
    wp_of_keeps (fun o ho known' _ => ⟨hP o ho known', fun _ _ _ => trivial⟩) hu trivial
  exact wp_mono (wp_known h) fun _ _ h => h.2

/-! ## The events of one thread -/

/-- The events of thread `t`. -/
def own (t : Nat) (log : List (Ev O A E)) : List (Ev O A E) := log.filter fun e => e.tid == t

theorem own_append (t u : Nat) (log : List (Ev O A E)) (o : O) (r : Except E (A o)) :
    own t (log ++ [⟨u, o, r⟩]) = if u = t then own t log ++ [⟨u, o, r⟩] else own t log := by
  by_cases h : u = t
  · subst h
    simp [own, List.filter_append]
  · simp [own, List.filter_append, h]

theorem own_mono (t : Nat) {log log' : List (Ev O A E)} (h : log <+: log') : own t log <+: own t log' :=
  h.filter _

theorem mem_own {log : List (Ev O A E)} {e : Ev O A E} (h : e ∈ own t log) : e ∈ log :=
  (List.mem_filter.mp h).1

/-- Thread `t` with everything that it has done so far, and what it may do next. -/
def Machine.own (may : List (Ev O A E) → O → Prop) (t : Nat) : Machine O A E (List (Ev O A E)) where
  may := may
  step events o r events' := events' = events ++ [⟨t, o, r⟩]

/-- What has been done stays done. -/
theorem wp_own_grows {may : List (Ev O A E) → O → Prop} {events : List (Ev O A E)} {p : Prog O A E α}
    {Q : Except E α → List (Ev O A E) → Prop} (h : wp (Machine.own may t) p Q events) :
    wp (Machine.own may t) p (fun r events' => Q r events' ∧ events <+: events') events := by
  induction p generalizing events with
  | ret a => exact ⟨h, List.prefix_rfl⟩
  | raise e => exact ⟨h, List.prefix_rfl⟩
  | op o k ih =>
    refine ⟨h.1, fun r events' hstep => ?_⟩
    refine wp_mono (ih r (h.2 r events' hstep)) ?_
    rintro r' events'' ⟨hQ, hpre⟩
    have hstep : events' = events ++ [⟨t, o, r⟩] := hstep
    exact ⟨hQ, (hstep ▸ List.prefix_append events _).trans hpre⟩

/-! ## Machines of their own for the threads -/

/-- A machine for every thread, as one machine whose states carry the thread. -/
def Machine.family (m : Nat → Machine O A E σ) : Machine O A E (Nat × σ) where
  may s o := (m s.1).may s.2 o
  step s o r s' := s'.1 = s.1 ∧ (m s.1).step s.2 o r s'.2

theorem wp_family {m : Nat → Machine O A E σ} {p : Prog O A E α} {Q : Except E α → σ → Prop} {s : σ}
    (h : wp (m t) p Q s) : wp (Machine.family m) p (fun r s' => s'.1 = t ∧ Q r s'.2) (t, s) := by
  induction p generalizing s with
  | ret a => exact ⟨rfl, h⟩
  | raise e => exact ⟨rfl, h⟩
  | op o k ih =>
    refine ⟨h.1, ?_⟩
    rintro r ⟨t', s'⟩ ⟨rfl, hstep⟩
    exact ih r (h.2 r s' hstep)

namespace Conf

/-- **Runs of a family.**  `J` ties the configuration to the states of the threads, each of which
conforms to its own machine. -/
theorem run_family {W : Type} {exec : Nat → (o : O) → W → Except E (A o) × W}
    {m : Nat → Machine O A E σ} {Q : Nat → Except E α → σ → Prop}
    {ok : Conf O A E W α → Nat → O → Prop} {J : Conf O A E W α → (Nat → σ) → Prop}
    (hstep : ∀ c st t o, J c st → ok c t o → (m t).may (st t) o → ∀ c', c'.world = (exec t o c.world).2 →
      ∃ s', (m t).step (st t) o (exec t o c.world).1 s' ∧ J c' (Function.update st t s'))
    {c : Conf O A E W α} {st : Nat → σ} (hJ : J c st) (hc : ∀ t, wp (m t) (c.threads t) (Q t) (st t))
    {sched : List Nat} (hm : Meets exec ok c sched) :
    ∃ st', J (run exec c sched) st' ∧
      ∀ t r, (run exec c sched).outcome t = some r → Q t r (st' t) := by
  have hrun : ∃ st', (J (run exec c sched) (fun t => (st' t).2) ∧ ∀ t, (st' t).1 = t) ∧
      (run exec c sched).Conforms (Machine.family m) (fun t r s => s.1 = t ∧ Q t r s.2) st' := by
    refine run_typestate (J := fun c st => J c (fun t => (st t).2) ∧ ∀ t, (st t).1 = t) ?_ ⟨hJ, fun t => rfl⟩
      (fun t => wp_family (hc t)) hm
    rintro c st t o k ⟨hJ, htid⟩ - ht hok hmay
    have hmay : (m t).may (st t).2 o := by
      have := hmay
      unfold Machine.family at this
      dsimp only at this
      rwa [htid t] at this
    obtain ⟨s', hs', hJ'⟩ := hstep c (fun u => (st u).2) t o hJ hok hmay (step exec c t)
      (by rw [step_of_op ht])
    have hst : (fun u => (Function.update st t (t, s') u).2) =
        Function.update (fun u => (st u).2) t s' := by
      funext u
      by_cases hu : u = t
      · subst hu
        simp only [Function.update_self]
      · simp only [Function.update_of_ne hu]
    refine ⟨(t, s'), ⟨(htid t).symm, ?_⟩, ?_, fun u => ?_⟩
    · rw [htid t]
      exact hs'
    · rw [hst]
      exact hJ'
    · by_cases hu : u = t
      · subst hu
        simp only [Function.update_self]
      · simp only [Function.update_of_ne hu, htid u]
  obtain ⟨st', ⟨hJ', -⟩, hconf⟩ := hrun
  exact ⟨fun t => (st' t).2, hJ', fun t r ht => (hconf.outcome ht).2⟩

/-- **Runs under contracts.**  Every thread knows a part of the log, and keeps to its contract. -/
theorem run_contract {f : List (Ev O A E) → Nat → (o : O) → D → Except E (A o) × D}
    {C : Nat → Contract O A E} {I : Logged O A E D → Prop} {Q : Nat → Except E α → List (Ev O A E) → Prop}
    {ok : Conf O A E (Logged O A E D) α → Nat → O → Prop}
    (hstep : ∀ c t o known, I c.world → known ⊆ c.world.log → (C t).guarantee known o → ok c t o →
      (C t).rely (Logged.exec f t o c.world).2.log o (Logged.exec f t o c.world).1 ∧
        I (Logged.exec f t o c.world).2)
    {c : Conf O A E (Logged O A E D) α} (hI : I c.world)
    (hc : ∀ t, wp ((C t).machine t) (c.threads t) (Q t) []) {sched : List Nat}
    (hm : Meets (Logged.exec f) ok c sched) :
    I (c.run (Logged.exec f) sched).world ∧ ∀ t r, (c.run (Logged.exec f) sched).outcome t = some r →
      ∃ known, known ⊆ (c.run (Logged.exec f) sched).world.log ∧ Q t r known := by
  have hrun : ∃ known : Nat → List (Ev O A E), (I (c.run (Logged.exec f) sched).world ∧
      ∀ t, known t ⊆ (c.run (Logged.exec f) sched).world.log) ∧
      ∀ t r, (c.run (Logged.exec f) sched).outcome t = some r → Q t r (known t) := by
    refine run_family (m := fun t => (C t).machine t)
      (J := fun c known => I c.world ∧ ∀ t, known t ⊆ c.world.log) ?_
      ⟨hI, fun _ => List.nil_subset _⟩ hc hm
    rintro c known t o ⟨hI, hknown⟩ hok hmay c' hc'
    obtain ⟨hrely, hI'⟩ := hstep c t o (known t) hI (hknown t) hmay hok
    have hlog : c.world.log ⊆ (Logged.exec f t o c.world).2.log := List.subset_append_left _ _
    refine ⟨(Logged.exec f t o c.world).2.log, ⟨?_, ?_, hrely⟩, ?_⟩
    · exact fun e he => hlog (hknown t he)
    · exact List.mem_append_right _ (List.mem_singleton_self _)
    · rw [hc']
      refine ⟨hI', fun u => ?_⟩
      by_cases hu : u = t
      · subst hu
        rw [Function.update_self]
        exact fun _ he => he
      · rw [Function.update_of_ne hu]
        exact fun e he => hlog (hknown u he)
  obtain ⟨known, ⟨hI', hknown⟩, hout⟩ := hrun
  exact ⟨hI', fun t r ht => ⟨known t, hknown t, hout t r ht⟩⟩

/-- **Runs of threads that know themselves.**  Every operation that a thread may perform, given its own
events, keeps the invariant. -/
theorem run_own {f : List (Ev O A E) → Nat → (o : O) → D → Except E (A o) × D}
    {may : Nat → List (Ev O A E) → O → Prop} {I : Logged O A E D → Prop}
    {Q : Nat → Except E α → List (Ev O A E) → Prop} {ok : Conf O A E (Logged O A E D) α → Nat → O → Prop}
    (hstep : ∀ c t o, I c.world → may t (own t c.world.log) o → ok c t o →
      I (Logged.exec f t o c.world).2)
    {c : Conf O A E (Logged O A E D) α} (hI : I c.world)
    (hc : ∀ t, wp (Machine.own (may t) t) (c.threads t) (Q t) (own t c.world.log)) {sched : List Nat}
    (hm : Meets (Logged.exec f) ok c sched) :
    I (c.run (Logged.exec f) sched).world ∧ ∀ t r, (c.run (Logged.exec f) sched).outcome t = some r →
      Q t r (own t (c.run (Logged.exec f) sched).world.log) := by
  have hrun : ∃ st : Nat → List (Ev O A E), (I (c.run (Logged.exec f) sched).world ∧
      ∀ t, st t = own t (c.run (Logged.exec f) sched).world.log) ∧
      ∀ t r, (c.run (Logged.exec f) sched).outcome t = some r → Q t r (st t) := by
    refine run_family (m := fun t => Machine.own (may t) t)
      (J := fun c st => I c.world ∧ ∀ t, st t = own t c.world.log) ?_ ⟨hI, fun _ => rfl⟩ hc hm
    rintro c st t o ⟨hI, hst⟩ hok hmay c' hc'
    have hmay : may t (st t) o := hmay
    rw [hst t] at hmay
    have hmoves : (Machine.own (may t) t).step (st t) o (Logged.exec f t o c.world).1
        (st t ++ [⟨t, o, (Logged.exec f t o c.world).1⟩]) := by
      unfold Machine.own
      rfl
    refine ⟨_, hmoves, ?_, fun u => ?_⟩
    · rw [hc']
      exact hstep c t o hI hmay hok
    · have hlog : c'.world.log = c.world.log ++ [⟨t, o, (Logged.exec f t o c.world).1⟩] := by
        rw [hc']
        rfl
      rw [hlog, own_append]
      by_cases hu : u = t
      · subst hu
        rw [Function.update_self, if_pos rfl, hst u]
      · rw [Function.update_of_ne hu, if_neg (Ne.symm hu), hst u]
  obtain ⟨st, ⟨hI', hst⟩, hout⟩ := hrun
  exact ⟨hI', fun t r ht => hst t ▸ hout t r ht⟩

end Conf

end AgentHarness.Lib
