import AgentHarness.StdioProtocol

/-!
# ClientContained — which failures stay inside `StdioMCPClient`

`list_tools` and `call_tool` catch the exceptions of the client's own classes.  Some answers of the operating
system and of the server raise others: they `Escape`.  A call that meets none of them ends with a list or a
dict, and lets go of a process whose handshake has failed; a call that meets one raises.  The invariant is
`Contained`: a process that was sent `initialize` is held only when it is initialized.
-/

namespace AgentHarness

open Lib

namespace StdioMCPClient

/-- The answers behind which nothing is caught: a process that does not start, a line that cannot be written
or loaded, and a reply that is not an object. -/
def Escapes : OsEvent → Prop
  | ⟨.spawn _ _, some _⟩ => True
  | ⟨.write _ _, .raised _⟩ => True
  | ⟨.readline _, .line (.unloadable _)⟩ => True
  | ⟨.readline _, .line (.value (.dict _))⟩ => False
  | ⟨.readline _, .line (.value _)⟩ => True
  | _ => False

/-- `_ensure_configured` does not raise. -/
def Accepted (env : StdioEnv) (c : StdioMCPClient) : Prop :=
  c.command ≠ "" ∧ (parseCsv env.unicode c.commandAllowlist ≠ [] → c.command ∈ parseCsv env.unicode c.commandAllowlist)

/-- The configuration is accepted, and `shlex.split` raises on its arguments. -/
def Unsplittable (env : StdioEnv) (c : StdioMCPClient) : Prop :=
  Accepted env c ∧ ∃ msg, buildCmdline env c = .error msg

/-- Process `p` was sent `initialize`. -/
def SentInitialize (p : Nat) (log : List OsEvent) : Prop :=
  ∃ id params answer, (⟨.write p (.request id "initialize" params), answer⟩ : OsEvent) ∈ log

/-- No process is held whose handshake was begun and has failed. -/
def NothingLeft (s : SessionState) : Prop :=
  ∀ p, s.1.process = some p → SentInitialize p s.2 → s.1.initialized = true

/-- The log has grown, and no answer escapes. -/
def Quietly (base log : List OsEvent) : Prop := ∃ segment, log = base ++ segment ∧ ∀ e ∈ segment, ¬ Escapes e

/-- The log has grown, with an answer that escapes. -/
def Loudly (base log : List OsEvent) : Prop := ∃ segment, log = base ++ segment ∧ ∃ e ∈ segment, Escapes e

/-- The numbers of the processes, and the configuration that started the one that is held. -/
structure Numbered (env : StdioEnv) (s : SessionState) : Prop where
  sent : ∀ p, SentInitialize p s.2 → p < s.1.processes
  held : ∀ p, s.1.process = some p → p < s.1.processes ∧ ¬ Unsplittable env s.1

/-- The invariant between the calls. -/
structure Contained (env : StdioEnv) (s : SessionState) : Prop where
  numbered : Numbered env s
  nothingLeft : NothingLeft s

/-- Nothing was started or written, and the process is held as before or let go of. -/
structure Idle (s s' : SessionState) : Prop where
  config : SameConfig s'.1 s.1
  processes : s'.1.processes = s.1.processes
  sent : ∀ p, SentInitialize p s'.2 → SentInitialize p s.2
  quietly : Quietly s.2 s'.2
  held : s'.1.process = s.1.process ∧ s'.1.initialized = s.1.initialized ∨ s'.1.process = none

/-- The machine on which everything may be asked. -/
abbrev anyMachine : Machine (SelfOp StdioMCPClient OsOp) (SelfOp.Ans OsOp.Answer) StdioExc SessionState :=
  Object.machine fun _ _ => True

variable {env : StdioEnv} {s s' s'' : SessionState} {base log log' : List OsEvent} {p q : Nat} {o : OsOp}
  {a : o.Answer} {α β : Type}

/-! ## The log -/

theorem Quietly.refl : Quietly log log := ⟨[], by simp, by simp⟩

theorem Quietly.trans (h : Quietly base log) (h' : Quietly log log') : Quietly base log' := by
  obtain ⟨segment, rfl, hsegment⟩ := h
  obtain ⟨segment', rfl, hsegment'⟩ := h'
  refine ⟨segment ++ segment', by simp, fun e he => ?_⟩
  rcases List.mem_append.mp he with he | he
  · exact hsegment e he
  · exact hsegment' e he

theorem Quietly.loudly (h : Quietly base log) (h' : Loudly log log') : Loudly base log' := by
  obtain ⟨segment, rfl, -⟩ := h
  obtain ⟨segment', rfl, e, he, hescapes⟩ := h'
  exact ⟨segment ++ segment', by simp, e, List.mem_append_right _ he, hescapes⟩

theorem Quietly.one (h : ¬ Escapes ⟨o, a⟩) : Quietly log (log ++ [⟨o, a⟩]) := by
  refine ⟨_, rfl, fun e he => ?_⟩
  obtain rfl := List.mem_singleton.mp he
  exact h

theorem Loudly.one (h : Escapes ⟨o, a⟩) : Loudly log (log ++ [⟨o, a⟩]) :=
  ⟨_, rfl, _, List.mem_singleton_self _, h⟩

theorem Loudly.not_quietly (h : Loudly base log) : ¬ Quietly base log := by
  rintro ⟨segment, rfl, hquiet⟩
  obtain ⟨segment', hlog, e, he, hescapes⟩ := h
  obtain rfl := List.append_cancel_left hlog
  exact hquiet e he hescapes

/-- A part of what has grown quietly. -/
theorem Quietly.drop (h : Quietly base log') (hbase : base <+: log) (hlog : log <+: log') : Quietly log log' := by
  obtain ⟨segment, hgrown, hquiet⟩ := h
  obtain ⟨first, rfl⟩ := hbase
  obtain ⟨rest, rfl⟩ := hlog
  refine ⟨rest, rfl, fun e he => hquiet e ?_⟩
  rw [List.append_assoc] at hgrown
  rw [← List.append_cancel_left hgrown]
  exact List.mem_append_right _ he

theorem Loudly.grow (h : Loudly base log) (hlog : log <+: log') : Loudly base log' := by
  obtain ⟨segment, rfl, e, he, hescapes⟩ := h
  obtain ⟨rest, rfl⟩ := hlog
  exact ⟨segment ++ rest, by simp, e, List.mem_append_left _ he, hescapes⟩

theorem Quietly.grown (h : Quietly base log) : base <+: log := by
  obtain ⟨segment, rfl, -⟩ := h
  exact List.prefix_append _ _

theorem sentInitialize_append : SentInitialize p (log ++ log') ↔ SentInitialize p log ∨ SentInitialize p log' := by
  unfold SentInitialize
  simp only [List.mem_append]
  grind

theorem sentInitialize_one (h : ∀ id params, o ≠ .write p (.request id "initialize" params)) :
    SentInitialize p (log ++ [⟨o, a⟩]) ↔ SentInitialize p log := by
  rw [sentInitialize_append]
  refine ⟨?_, .inl⟩
  rintro (hlog | ⟨id, params, answer, hmem⟩)
  · exact hlog
  · have heq : (⟨.write p (.request id "initialize" params), answer⟩ : OsEvent) = ⟨o, a⟩ := List.mem_singleton.mp hmem
    exact absurd (congrArg Happened.op heq).symm (h id params)

/-! ## The invariant -/

theorem unsplittable_congr {c c' : StdioMCPClient} (h : SameConfig c' c) :
    Unsplittable env c' ↔ Unsplittable env c := by
  obtain ⟨hcommand, hargs, hallow⟩ := h
  unfold Unsplittable Accepted buildCmdline
  rw [hcommand, hargs, hallow]

theorem SameConfig.trans {c c' c'' : StdioMCPClient} (h : SameConfig c' c) (h' : SameConfig c'' c') :
    SameConfig c'' c := by
  obtain ⟨hcommand, hargs, hallow⟩ := h
  obtain ⟨hcommand', hargs', hallow'⟩ := h'
  exact ⟨hcommand'.trans hcommand, hargs'.trans hargs, hallow'.trans hallow⟩

theorem Idle.refl : Idle s s := ⟨⟨rfl, rfl, rfl⟩, rfl, fun _ h => h, .refl, .inl ⟨rfl, rfl⟩⟩

theorem Idle.trans (h : Idle s s') (h' : Idle s' s'') : Idle s s'' := by
  refine ⟨h.config.trans h'.config, h'.processes.trans h.processes, fun p hp => h.sent p (h'.sent p hp),
    h.quietly.trans h'.quietly, ?_⟩
  rcases h'.held with ⟨hproc', hinit'⟩ | hgone'
  · rcases h.held with ⟨hproc, hinit⟩ | hgone
    · exact .inl ⟨hproc'.trans hproc, hinit'.trans hinit⟩
    · exact .inr (hproc'.trans hgone)
  · exact .inr hgone'

theorem Numbered.idle (h : Numbered env s) (hidle : Idle s s') : Numbered env s' := by
  refine ⟨fun p hp => ?_, fun p hp => ?_⟩
  · rw [hidle.processes]
    exact h.sent p (hidle.sent p hp)
  · rcases hidle.held with ⟨hproc, -⟩ | hgone
    · rw [hproc] at hp
      rw [hidle.processes, unsplittable_congr hidle.config]
      exact h.held p hp
    · rw [hgone] at hp
      simp at hp

theorem NothingLeft.idle (h : NothingLeft s) (hidle : Idle s s') : NothingLeft s' := by
  intro p hp hsent
  rcases hidle.held with ⟨hproc, hinit⟩ | hgone
  · rw [hinit]
    exact h p (hproc.symm.trans hp) (hidle.sent p hsent)
  · rw [hgone] at hp
    simp at hp

theorem Contained.idle (h : Contained env s) (hidle : Idle s s') : Contained env s' :=
  ⟨h.numbered.idle hidle, h.nothingLeft.idle hidle⟩

theorem NothingLeft.of_none (h : s.1.process = none) : NothingLeft s := by
  intro p hp
  rw [h] at hp
  simp at hp

/-! ## Programs that idle -/

/-- The program idles, and returns. -/
def Idles (prog : StdioProg α) : Prop := ∀ s, wp anyMachine prog (fun r s' => (∃ a, r = .ok a) ∧ Idle s s') s

theorem Idles.pure (a : α) : Idles (Pure.pure a : StdioProg α) := fun _ => ⟨⟨a, rfl⟩, .refl⟩

theorem Idles.bind {prog : StdioProg α} {f : α → StdioProg β} (h : Idles prog) (hf : ∀ a, Idles (f a)) :
    Idles (prog >>= f) := by
  intro s
  refine wp_bind.mpr (wp_mono (h s) ?_)
  rintro r s' ⟨⟨a, rfl⟩, hidle⟩
  refine wp_mono (hf a s') ?_
  rintro r s'' ⟨hret, hidle'⟩
  exact ⟨hret, hidle.trans hidle'⟩

theorem idles_self : Idles (Object.self : StdioProg StdioMCPClient) :=
  fun _ => Object.wp_self.mpr ⟨⟨_, rfl⟩, .refl⟩

theorem idles_modify {f : StdioMCPClient → StdioMCPClient} (hf : Tame f) (hnum : ∀ c, (f c).processes = c.processes) :
    Idles (Object.modify f : StdioProg Unit) := by
  intro s
  refine Object.wp_modify.mpr ⟨⟨(), rfl⟩, ?_⟩
  obtain ⟨hconfig, -, hheld⟩ := hf s.1
  exact ⟨hconfig, hnum s.1, fun _ h => h, .refl, hheld.imp id And.left⟩

theorem idle_asked (ho : housekeeping o = true) : Idle s (s.1, s.2 ++ [⟨o, a⟩]) := by
  refine ⟨⟨rfl, rfl, rfl⟩, rfl, fun p hp => (sentInitialize_one fun id params h => ?_).mp hp, .one fun h => ?_,
    .inl ⟨rfl, rfl⟩⟩
  · rw [h] at ho
    simp [housekeeping] at ho
  · cases o with
    | poll | readStderr | terminate | closeStreams => exact h
    | spawn | write | readline => simp [housekeeping] at ho

theorem idles_ext (ho : housekeeping o = true) : Idles (Object.ext o : StdioProg o.Answer) :=
  fun _ => Object.wp_ext.mpr ⟨trivial, fun a => ⟨⟨a, rfl⟩, idle_asked ho⟩⟩

theorem appendStderr_idles {chunk : String} : Idles (appendStderr chunk) := by
  unfold appendStderr
  split
  · exact .pure ()
  · exact idles_modify (fun c => ⟨⟨rfl, rfl, rfl⟩, rfl, .inl ⟨rfl, rfl⟩⟩) fun _ => rfl

theorem collectStderrIfAvailable_idles : Idles collectStderrIfAvailable := by
  refine idles_self.bind fun c => ?_
  cases c.process with
  | none => exact .pure ()
  | some p =>
    refine (idles_ext (o := .poll p) rfl).bind fun exit => ?_
    cases exit with
    | none => exact .pure ()
    | some code => exact (idles_ext (o := .readStderr p) rfl).bind fun chunk => appendStderr_idles

theorem cleanupProcess_idles {reason : String} {terminate : Bool} : Idles (cleanupProcess reason terminate) := by
  refine idles_self.bind fun c => ?_
  have hlast : Idles (Object.modify fun c : StdioMCPClient => { c with
      process := none, started := false, initialized := false,
      lastRestartReason := if reason = "" then c.lastRestartReason else reason } : StdioProg Unit) :=
    idles_modify (fun c => ⟨⟨rfl, rfl, rfl⟩, rfl, .inr ⟨rfl, rfl⟩⟩) fun _ => rfl
  cases c.process with
  | none => exact hlast
  | some p =>
    cases terminate with
    | false => exact (idles_ext (o := .closeStreams p) rfl).bind fun _ => hlast
    | true =>
      refine (idles_ext (o := .poll p) rfl).bind fun exit => ?_
      split
      · refine (idles_ext (o := .terminate p) rfl).bind fun _ => ?_
        exact (idles_ext (o := .closeStreams p) rfl).bind fun _ => hlast
      · exact (idles_ext (o := .closeStreams p) rfl).bind fun _ => hlast

theorem mapToolErrorResult_idles {result : Dict} : Idles (mapToolErrorResult env result) := by
  refine idles_self.bind fun c => Idles.bind ?_ fun _ => .pure _
  exact idles_modify (fun c => ⟨⟨rfl, rfl, rfl⟩, rfl, .inl ⟨rfl, rfl⟩⟩) fun _ => rfl

theorem toolResult_idles {result : PyVal} : Idles (toolResult env result) := by
  unfold toolResult
  split
  · split
    · exact mapToolErrorResult_idles
    · exact .pure _
  · exact .pure _

/-! ## Failures -/

theorem recordFailure_idles {exc : StdioExc} {reason : String} : Idles (recordFailure env exc reason) := by
  refine Idles.bind (idles_modify (fun c => ⟨⟨rfl, rfl, rfl⟩, rfl, .inl ⟨rfl, rfl⟩⟩) fun _ => rfl) fun _ => ?_
  refine collectStderrIfAvailable_idles.bind fun _ => idles_self.bind fun c => ?_
  refine Idles.bind (idles_modify (fun c => ⟨⟨rfl, rfl, rfl⟩, rfl, .inl ⟨rfl, rfl⟩⟩) fun _ => rfl) fun _ => ?_
  split
  · exact .pure _
  · refine Idles.bind (idles_modify (fun c => ⟨⟨rfl, rfl, rfl⟩, rfl, .inl ⟨rfl, rfl⟩⟩) fun _ => rfl) fun _ => ?_
    exact cleanupProcess_idles.bind fun _ => .pure _

/-- A cleanup lets go of the process. -/
theorem cleanupProcess_gone {reason : String} {terminate : Bool} :
    wp anyMachine (cleanupProcess reason terminate) (fun _ s' => s'.1.process = none) s := by
  refine Object.wp_self_bind.mpr ?_
  rcases s.1.process with _ | p
  · exact Object.wp_modify.mpr rfl
  · cases terminate with
    | false => exact Object.wp_ext_bind.mpr ⟨trivial, fun _ => Object.wp_modify.mpr rfl⟩
    | true =>
      refine Object.wp_ext_bind.mpr ⟨trivial, fun exit => ?_⟩
      split
      · refine Object.wp_ext_bind.mpr ⟨trivial, fun _ => ?_⟩
        exact Object.wp_ext_bind.mpr ⟨trivial, fun _ => Object.wp_modify.mpr rfl⟩
      · exact Object.wp_ext_bind.mpr ⟨trivial, fun _ => Object.wp_modify.mpr rfl⟩

/-- So does a failure with a reason for a restart. -/
theorem recordFailure_gone {exc : StdioExc} {reason : String} (hreason : reason ≠ "") :
    wp anyMachine (recordFailure env exc reason) (fun _ s' => s'.1.process = none) s := by
  refine Object.wp_modify_bind.mpr (wp_bind.mpr (wp_mono (collectStderrIfAvailable_idles _) ?_))
  rintro r s₁ ⟨⟨⟨⟩, rfl⟩, -⟩
  refine Object.wp_self_bind.mpr (Object.wp_modify_bind.mpr ?_)
  rw [if_neg hreason]
  refine Object.wp_modify_bind.mpr (wp_bind.mpr (wp_mono (wp_and (cleanupProcess_idles _) cleanupProcess_gone) ?_))
  rintro r s₂ ⟨⟨⟨⟨⟩, rfl⟩, -⟩, hgone⟩
  exact hgone

/-! ## Requests -/

/-- What the outcome of an exchange of lines says of it. -/
def Reports (r : Except StdioExc α) (quiet loud : Prop) : Prop :=
  match r with
  | .error (.other _) => loud
  | .error (.configError _) => False
  | _ => quiet

theorem Reports.imp {r : Except StdioExc α} {quiet loud quiet' loud' : Prop} (h : Reports r quiet loud)
    (hquiet : quiet → quiet') (hloud : loud → loud') : Reports r quiet' loud' := by
  cases r with
  | ok a => exact hquiet h
  | error e =>
    cases e with
    | other msg => exact hloud h
    | configError msg => exact h
    | protocolError msg | timeoutError msg | processCrashed msg => exact hquiet h

/-- An exception is passed on. -/
theorem Reports.raise {e : StdioExc} {quiet loud : Prop} (h : Reports (.error e : Except StdioExc α) quiet loud) :
    Reports (.error e : Except StdioExc β) quiet loud := by
  cases e with
  | other msg | configError msg | protocolError msg | timeoutError msg | processCrashed msg => exact h

theorem responseResult_reports {serverName : String} {n : Nat} {v : PyVal} :
    Reports (responseResult env serverName n v) (¬ Escapes ⟨.readline p, .line (.value v)⟩)
      (Escapes ⟨.readline p, .line (.value v)⟩) := by
  cases v with
  | dict d =>
    have hnot : ¬ Escapes ⟨.readline p, .line (.value (.dict d))⟩ := id
    unfold responseResult
    dsimp only
    split
    · exact hnot
    · split
      · exact hnot
      · split
        · split
          · exact hnot
          · exact hnot
        · exact hnot
        · exact hnot
  | null | bool | int | float | str | list | object => exact trivial

theorem readResponse_reports {serverName : String} {n : Nat} {answer : ReadAnswer} :
    Reports (readResponse env serverName n answer) (¬ Escapes ⟨.readline p, answer⟩)
      (Escapes ⟨.readline p, answer⟩) := by
  rcases answer with ⟨_ | line | v | msg⟩ | _ | _
  · exact id
  · exact id
  · exact responseResult_reports
  · trivial
  · exact id
  · exact id

theorem writeLine_reports {msg : WireMessage} :
    wp anyMachine (writeLine p msg) (fun r s' => ∃ answer, s' = (s.1, s.2 ++ [⟨.write p msg, answer⟩]) ∧
      Reports r (¬ Escapes ⟨.write p msg, answer⟩) (Escapes ⟨.write p msg, answer⟩)) s := by
  refine Object.wp_self_bind.mpr (Object.wp_ext_bind.mpr ⟨trivial, fun answer => ?_⟩)
  rcases answer with _ | _ | msg
  · exact ⟨.written, rfl, id⟩
  · exact ⟨.osError, rfl, id⟩
  · exact ⟨.raised msg, rfl, trivial⟩

/-- What a request leaves. -/
structure Asked (env : StdioEnv) (method : String) (s : SessionState) (r : Except StdioExc PyVal) (s' : SessionState) :
    Prop where
  numbered : Numbered env s'
  process : s'.1.process = s.1.process
  initialized : s'.1.initialized = s.1.initialized
  config : SameConfig s'.1 s.1
  sent : method ≠ "initialize" → ∀ p, SentInitialize p s'.2 → SentInitialize p s.2
  log : Reports r (Quietly s.2 s'.2) (Loudly s.2 s'.2)

/-- An answer to what the process that is held was asked keeps the numbers. -/
theorem Numbered.asked (h : Numbered env s) (ho : ∀ q id params, o = .write q (.request id "initialize" params) →
    s.1.process = some q) : Numbered env (s.1, s.2 ++ [⟨o, a⟩]) := by
  refine ⟨fun p hp => ?_, h.held⟩
  rcases sentInitialize_append.mp hp with hlog | ⟨id, params, answer, hmem⟩
  · exact h.sent p hlog
  · have heq : (⟨.write p (.request id "initialize" params), answer⟩ : OsEvent) = ⟨o, a⟩ := List.mem_singleton.mp hmem
    exact (h.held p (ho p id params (congrArg Happened.op heq).symm)).1

theorem request_asked {method : String} {params : Dict} (hs : Numbered env s) :
    wp anyMachine (request env method params) (Asked env method s) s := by
  refine Object.wp_self_bind.mpr ?_
  rcases hproc : s.1.process with _ | p
  · exact ⟨hs, rfl, rfl, ⟨rfl, rfl, rfl⟩, fun _ _ h => h, Quietly.refl⟩
  refine Object.wp_ext_bind.mpr ⟨trivial, fun exit => ?_⟩
  have hpoll : ∀ {log : List OsEvent} {answer : Option Int}, Quietly log (log ++ [⟨.poll p, answer⟩]) :=
    fun {log answer} => Quietly.one (o := .poll p) (a := answer) id
  have hpolled : ∀ {log : List OsEvent} {answer : Option Int} {q}, SentInitialize q (log ++ [⟨.poll p, answer⟩]) →
      SentInitialize q log := fun {log answer q} h =>
    (sentInitialize_one (o := .poll p) (a := answer) fun _ _ => by simp).mp h
  have hnum : Numbered env (s.1, s.2 ++ [⟨.poll p, exit⟩]) :=
    hs.asked (o := .poll p) (a := exit) fun _ _ _ h => by simp at h
  cases exit with
  | some code =>
    refine Object.wp_ext_bind.mpr ⟨trivial, fun code' => ?_⟩
    exact ⟨hnum.asked (o := .poll p) (a := code') fun _ _ _ h => by simp at h, rfl, rfl, ⟨rfl, rfl, rfl⟩,
      fun _ q h => hpolled (hpolled h), hpoll.trans hpoll⟩
  | none =>
    refine Object.wp_modify_bind.mpr (wp_bind.mpr (wp_mono writeLine_reports ?_))
    rintro r s' ⟨answer, rfl, hreports⟩
    have hwrite : Numbered env (s.1, s.2 ++ [⟨.poll p, none⟩] ++
        [⟨.write p (.request (s.1.requestId + 1) method params), answer⟩]) := by
      refine hnum.asked fun q id params' h => ?_
      obtain ⟨rfl, -⟩ := OsOp.write.inj h
      exact hproc
    have hunsent : method ≠ "initialize" → ∀ q, SentInitialize q (s.2 ++ [⟨.poll p, none⟩] ++
        [⟨.write p (.request (s.1.requestId + 1) method params), answer⟩]) → SentInitialize q s.2 := by
      intro hmethod q hq
      refine hpolled ((sentInitialize_one fun id params' h => hmethod ?_).mp hq)
      exact (WireMessage.request.inj (OsOp.write.inj h).2).2.1
    cases r with
    | error e =>
      refine ⟨⟨hwrite.sent, hwrite.held⟩, rfl, rfl, ⟨rfl, rfl, rfl⟩, hunsent, hreports.raise.imp ?_ ?_⟩
      · exact fun h => hpoll.trans (.one h)
      · exact fun h => hpoll.loudly (.one h)
    | ok _ =>
      have hquiet : Quietly s.2 (s.2 ++ [⟨.poll p, none⟩] ++
          [⟨.write p (.request (s.1.requestId + 1) method params), answer⟩]) := hpoll.trans (.one hreports)
      refine Object.wp_ext_bind.mpr ⟨trivial, fun line => ?_⟩
      have hread : Numbered env (s.1, s.2 ++ [⟨.poll p, none⟩] ++
          [⟨.write p (.request (s.1.requestId + 1) method params), answer⟩] ++ [⟨.readline p, line⟩]) :=
        hwrite.asked fun _ _ _ h => by simp at h
      have hline : Reports (readResponse env s.1.serverName (s.1.requestId + 1) line) _ _ :=
        readResponse_reports (p := p)
      have hasked : Asked env method s (readResponse env s.1.serverName (s.1.requestId + 1) line)
          (nextRequest s.1, s.2 ++ [⟨.poll p, none⟩] ++
            [⟨.write p (.request (s.1.requestId + 1) method params), answer⟩] ++ [⟨.readline p, line⟩]) := by
        refine ⟨⟨hread.sent, hread.held⟩, rfl, rfl, ⟨rfl, rfl, rfl⟩, fun hmethod q hq => ?_, hline.imp ?_ ?_⟩
        · exact hunsent hmethod q ((sentInitialize_one fun _ _ => by simp).mp hq)
        · exact fun h => hquiet.trans (.one h)
        · exact fun h => hquiet.loudly (.one h)
      rcases hresult : readResponse env s.1.serverName (s.1.requestId + 1) line with e | v
      · rw [hresult] at hasked
        exact hasked
      · rw [hresult] at hasked
        exact hasked

/-! ## The parts of a call -/

/-- The state is as between the calls, after nothing that escapes. -/
structure Settled (env : StdioEnv) (s s' : SessionState) : Prop where
  config : SameConfig s'.1 s.1
  quietly : Quietly s.2 s'.2
  splittable : ¬ Unsplittable env s.1
  contained : Contained env s'

/-- How a part of a call may end. -/
def Ended (env : StdioEnv) (s : SessionState) (r : Except StdioExc α) (s' : SessionState) : Prop :=
  match r with
  | .ok _ | .error (.configError _) => Settled env s s'
  | .error (.other _) => Loudly s.2 s'.2 ∨ Unsplittable env s.1
  | .error _ => SameConfig s'.1 s.1 ∧ Quietly s.2 s'.2 ∧ ¬ Unsplittable env s.1 ∧ Numbered env s'

theorem Settled.trans (h : Settled env s s') (h' : Settled env s' s'') : Settled env s s'' :=
  ⟨h.config.trans h'.config, h.quietly.trans h'.quietly, h.splittable, h'.contained⟩

theorem Settled.idle (h : Settled env s s') (h' : Idle s' s'') : Settled env s s'' :=
  ⟨h.config.trans h'.config, h.quietly.trans h'.quietly, h.splittable, h.contained.idle h'⟩

/-- A part that goes on where nothing has escaped. -/
theorem Ended.after {r : Except StdioExc α} (h : Ended env s' r s'') (hconfig : SameConfig s'.1 s.1)
    (hquiet : Quietly s.2 s'.2) : Ended env s r s'' := by
  have hsplit : Unsplittable env s'.1 ↔ Unsplittable env s.1 := unsplittable_congr hconfig
  have hsettled : Settled env s' s'' → Settled env s s'' := fun h =>
    ⟨hconfig.trans h.config, hquiet.trans h.quietly, fun hn => h.splittable (hsplit.mpr hn), h.contained⟩
  cases r with
  | ok a => exact hsettled h
  | error e =>
    cases e with
    | configError msg => exact hsettled h
    | other msg => exact h.imp hquiet.loudly hsplit.mp
    | protocolError msg | timeoutError msg | processCrashed msg =>
      obtain ⟨hconfig', hquiet', hnot, hnum⟩ := h
      exact ⟨hconfig.trans hconfig', hquiet.trans hquiet', fun hn => hnot (hsplit.mpr hn), hnum⟩

theorem Ended.raise {e : StdioExc} (h : Ended env s (.error e : Except StdioExc α) s') :
    Ended env s (.error e : Except StdioExc β) s' := by
  cases e with
  | other msg | configError msg | protocolError msg | timeoutError msg | processCrashed msg => exact h

/-- A request that failed. -/
theorem Asked.failed {method : String} {e : StdioExc} (h : Asked env method s (.error e) s')
    (hsplit : ¬ Unsplittable env s.1) : Ended env s (.error e : Except StdioExc α) s' := by
  have hlog := h.log
  cases e with
  | other msg => exact .inl hlog
  | configError msg => exact hlog.elim
  | protocolError msg | timeoutError msg | processCrashed msg => exact ⟨h.config, hlog, hsplit, h.numbered⟩

/-- A request other than `initialize`. -/
theorem Asked.ended {method : String} {r : Except StdioExc PyVal} (h : Asked env method s r s')
    (hmethod : method ≠ "initialize") (hleft : NothingLeft s) (hsplit : ¬ Unsplittable env s.1) : Ended env s r s' := by
  cases r with
  | error e => exact h.failed hsplit
  | ok v =>
    refine ⟨h.config, h.log, hsplit, h.numbered, fun p hp hsent => ?_⟩
    rw [h.initialized]
    exact hleft p (h.process.symm.trans hp) (h.sent hmethod p hsent)

theorem initializeSession_ended (hs : Numbered env s) (hsplit : ¬ Unsplittable env s.1) :
    wp anyMachine (initializeSession env) (Ended env s) s := by
  refine Object.wp_self_bind.mpr (wp_bind.mpr (wp_mono (request_asked hs) ?_))
  rintro (e | result) s₁ hasked
  · exact hasked.failed hsplit
  have hquiet : Quietly s.2 s₁.2 := hasked.log
  show wp anyMachine (Prog.ofExcept (checkVersion env s.1.serverName result) >>= fun _ =>
    notify "notifications/initialized" [] >>= fun _ => Object.modify fun c => { c with initialized := true })
    (Ended env s) s₁
  rcases hcheck : checkVersion env s.1.serverName result with e | ⟨⟩
  · have hprotocol : ∃ msg, e = .protocolError msg := by
      unfold checkVersion at hcheck
      grind
    obtain ⟨msg, rfl⟩ := hprotocol
    exact ⟨hasked.config, hquiet, hsplit, hasked.numbered⟩
  show wp anyMachine (notify "notifications/initialized" [] >>= fun _ =>
    Object.modify fun c => { c with initialized := true }) (Ended env s) s₁
  refine wp_bind.mpr (Object.wp_self_bind.mpr ?_)
  rcases hproc : s₁.1.process with _ | p
  · exact ⟨hasked.config, hquiet, hsplit, hasked.numbered⟩
  refine wp_mono writeLine_reports ?_
  rintro r s₂ ⟨answer, rfl, hreports⟩
  have hnum : Numbered env (s₁.1, s₁.2 ++ [⟨.write p (.notification "notifications/initialized" []), answer⟩]) :=
    hasked.numbered.asked fun _ _ _ h => by simp at h
  have hended := hreports.imp (fun h => hquiet.trans (.one h)) fun h => hquiet.loudly (.one h)
  cases r with
  | ok _ => exact Object.wp_modify.mpr ⟨hasked.config, hended, hsplit, ⟨hnum.sent, hnum.held⟩, fun _ _ _ => rfl⟩
  | error e =>
    cases e with
    | other msg => exact .inl hended
    | configError msg => exact hended.elim
    | protocolError msg | timeoutError msg | processCrashed msg => exact ⟨hasked.config, hended, hsplit, hnum⟩

theorem ensureConfigured_ended (hs : Contained env s) :
    wp anyMachine (ensureConfigured env)
      (fun r s' => s' = s ∧ ((∃ e, r = .error e ∧ Ended env s r s) ∨ r = .ok () ∧ Accepted env s.1)) s := by
  have hreject : ∀ msg, ¬ Unsplittable env s.1 →
      (Ended env s (.error (.configError msg) : Except StdioExc Unit) s) :=
    fun msg hsplit => ⟨⟨rfl, rfl, rfl⟩, .refl, hsplit, hs⟩
  refine Object.wp_self_bind.mpr ?_
  split
  · rename_i hempty
    exact ⟨rfl, .inl ⟨_, rfl, hreject _ fun h => h.1.1 hempty⟩⟩
  · rename_i hcommand
    dsimp only
    split
    · rename_i hdenied
      exact ⟨rfl, .inl ⟨_, rfl, hreject _ fun h => hdenied.2 (h.1.2 hdenied.1)⟩⟩
    · rename_i hallowed
      refine ⟨rfl, .inr ⟨rfl, hcommand, fun hlist => ?_⟩⟩
      by_contra hmem
      exact hallowed ⟨hlist, hmem⟩

theorem alive_idles : wp anyMachine alive (fun r s' => ∃ up, r = .ok up ∧ s'.1 = s.1 ∧ Idle s s' ∧
    (up = true → ∃ p, s.1.process = some p)) s := by
  refine Object.wp_self_bind.mpr ?_
  rcases s.1.process with _ | p
  · exact ⟨false, rfl, rfl, .refl, fun h => by simp at h⟩
  · exact Object.wp_ext_bind.mpr ⟨trivial, fun exit => ⟨_, rfl, rfl, idle_asked rfl, fun _ => ⟨p, rfl⟩⟩⟩

/-- Where a process is held, the command line could be built. -/
theorem Numbered.splittable (h : Numbered env s) (hp : s.1.process = some p) : ¬ Unsplittable env s.1 := (h.held p hp).2

theorem startProcess_ended (hs : Contained env s) (hconf : Accepted env s.1) :
    wp anyMachine (startProcess env) (Ended env s) s := by
  refine wp_bind.mpr (wp_mono alive_idles ?_)
  rintro r s₁ ⟨up, rfl, hself, hidle, hup⟩
  cases up with
  | true =>
    obtain ⟨p, hp⟩ := hup rfl
    exact ⟨hidle.config, hidle.quietly, hs.numbered.splittable hp, hs.idle hidle⟩
  | false =>
    refine Object.wp_self_bind.mpr ?_
    rcases hcmd : buildCmdline env s₁.1 with msg | cmdline
    · exact .inr ⟨hconf, msg, hself ▸ hcmd⟩
    · refine Object.wp_ext_bind.mpr ⟨trivial, fun failure => ?_⟩
      cases failure with
      | some msg => exact .inl (hidle.quietly.loudly (.one trivial))
      | none =>
        have hsplit : ¬ Unsplittable env s.1 := by
          rintro ⟨-, msg, hmsg⟩
          rw [hself, hmsg] at hcmd
          simp at hcmd
        have hsent : ∀ p, SentInitialize p (s₁.2 ++ [⟨.spawn s₁.1.processes cmdline, none⟩]) → p < s₁.1.processes :=
          fun p hp => (hs.numbered.idle hidle).sent p ((sentInitialize_one fun _ _ => by simp).mp hp)
        refine Object.wp_modify.mpr ⟨hidle.config, hidle.quietly.trans (.one id), hsplit,
          ⟨fun p hp => ?_, fun p hp => ?_⟩, fun p hp hinit => ?_⟩
        · exact Nat.lt_succ_of_lt (hsent p hp)
        · obtain rfl := Option.some.inj hp
          refine ⟨Nat.lt_succ_self _, fun h => hsplit ?_⟩
          exact (unsplittable_congr hidle.config).mp h
        · -- the number of the new process is above every one that was written to
          obtain rfl := Option.some.inj hp
          exact absurd (hsent _ hinit) (Nat.lt_irrefl _)

theorem ensureStarted_ended (hs : Contained env s) : wp anyMachine (ensureStarted env) (Ended env s) s := by
  have hopen : ∀ s' : SessionState, Settled env s s' →
      wp anyMachine (do
        let c ← Object.self
        if c.initialized then pure () else initializeSession env : StdioProg Unit) (Ended env s) s' := by
    intro s' h
    refine Object.wp_self_bind.mpr ?_
    split
    · exact h
    · have hsplit : ¬ Unsplittable env s'.1 := fun hn => h.splittable ((unsplittable_congr h.config).mp hn)
      refine wp_mono (initializeSession_ended h.contained.numbered hsplit) fun r s'' h' => ?_
      exact h'.after h.config h.quietly
  refine wp_bind.mpr (wp_mono (ensureConfigured_ended hs) ?_)
  rintro r s₁ ⟨rfl, ⟨e, rfl, hended⟩ | ⟨rfl, hconf⟩⟩
  · exact hended
  refine wp_bind.mpr (wp_mono alive_idles ?_)
  rintro r s₂ ⟨up, rfl, hself, hidle, hup⟩
  cases up with
  | true =>
    obtain ⟨p, hp⟩ := hup rfl
    exact hopen s₂ ⟨hidle.config, hidle.quietly, hs.numbered.splittable hp, hs.idle hidle⟩
  | false =>
    refine wp_bind.mpr (wp_mono (startProcess_ended (hs.idle hidle) (hself ▸ hconf)) ?_)
    rintro (e | ⟨⟩) s₃ hended
    · exact hended.after hidle.config hidle.quietly
    · exact hopen s₃ (Ended.after hended hidle.config hidle.quietly)

/-! ## The calls -/

/-- A failure that is recorded without a restart. -/
theorem record_settled {e : StdioExc} {reason : String} (h : Settled env s s') :
    wp anyMachine (recordFailure env e reason) (fun r s'' => (∃ m, r = .ok m) ∧ Settled env s s'') s' := by
  refine wp_mono (recordFailure_idles s') ?_
  rintro r s'' ⟨hret, hidle⟩
  exact ⟨hret, h.idle hidle⟩

/-- A failure that is recorded with one: the process is let go of, whatever became of its handshake. -/
theorem restart_settled {e : StdioExc} {reason : String} (hreason : reason ≠ "")
    (h : SameConfig s'.1 s.1 ∧ Quietly s.2 s'.2 ∧ ¬ Unsplittable env s.1 ∧ Numbered env s') :
    wp anyMachine (recordFailure env e reason) (fun r s'' => (∃ m, r = .ok m) ∧ Settled env s s'') s' := by
  obtain ⟨hconfig, hquiet, hsplit, hnum⟩ := h
  refine wp_mono (wp_and (recordFailure_idles s') (recordFailure_gone hreason)) ?_
  rintro r s'' ⟨⟨hret, hidle⟩, hgone⟩
  exact ⟨hret, hconfig.trans hidle.config, hquiet.trans hidle.quietly, hsplit, hnum.idle hidle, .of_none hgone⟩

/-- How a call may end: it returns, or an exception escapes. -/
def CallEnded (env : StdioEnv) (s : SessionState) (r : Except StdioExc α) (s' : SessionState) : Prop :=
  (∃ a, r = .ok a) ∧ Settled env s s' ∨ (∃ e, r = .error e) ∧ (Loudly s.2 s'.2 ∨ Unsplittable env s.1)

/-- What the calls try: a session, and a request in it. -/
theorem attempt_ended {method : String} {params : Dict} {f : PyVal → α} (hs : Contained env s)
    (hmethod : method ≠ "initialize") :
    wp anyMachine (do
      ensureStarted env
      let result ← request env method params
      pure (f result) : StdioProg α) (Ended env s) s := by
  refine wp_bind.mpr (wp_mono (ensureStarted_ended hs) ?_)
  rintro (e | ⟨⟩) s₁ h
  · exact h.raise
  have h : Settled env s s₁ := h
  have hsplit : ¬ Unsplittable env s₁.1 := fun hn => h.splittable ((unsplittable_congr h.config).mp hn)
  refine wp_bind.mpr (wp_mono (request_asked h.contained.numbered) ?_)
  rintro r s₂ hasked
  have hended := (hasked.ended hmethod h.contained.nothingLeft hsplit).after h.config h.quietly
  cases r with
  | error e => exact hended.raise
  | ok v => exact hended

/-- A second attempt is made only after a first that was settled. -/
theorem listAttempts_ended {left : Nat} (hs : Contained env s) (hleft : left = 0 → ¬ Unsplittable env s.1) :
    wp anyMachine (listAttempts env left) (CallEnded env s) s := by
  induction left generalizing s with
  | zero => exact .inl ⟨⟨none, rfl⟩, ⟨rfl, rfl, rfl⟩, .refl, hleft rfl, hs⟩
  | succ left ih =>
    have hmethod : ("tools/list" : String) ≠ "initialize" := by decide
    have hagain : ∀ {e : StdioExc} {s₁ : SessionState}, e.className ≠ "" →
        SameConfig s₁.1 s.1 ∧ Quietly s.2 s₁.2 ∧ ¬ Unsplittable env s.1 ∧ Numbered env s₁ →
        wp anyMachine (do
          let _ ← recordFailure env e e.className
          listAttempts env left) (CallEnded env s) s₁ := by
      intro e s₁ hname h
      refine wp_bind.mpr (wp_mono (restart_settled hname h) ?_)
      rintro r s₂ ⟨⟨message, rfl⟩, hsettled⟩
      have hsplit : ¬ Unsplittable env s₂.1 := fun hn =>
        hsettled.splittable ((unsplittable_congr hsettled.config).mp hn)
      refine wp_mono (ih hsettled.contained fun _ => hsplit) ?_
      rintro r s₃ (⟨hret, h⟩ | ⟨hraise, h⟩)
      · exact .inl ⟨hret, hsettled.trans h⟩
      · exact .inr ⟨hraise, h.imp hsettled.quietly.loudly fun hn => absurd hn hsplit⟩
    refine wp_tryCatch.mpr (wp_mono (attempt_ended hs hmethod) ?_)
    rintro (e | result) s₁ h
    · cases e with
      | other msg => exact .inr ⟨⟨_, rfl⟩, h⟩
      | configError msg =>
        refine wp_bind.mpr (wp_mono (record_settled h) ?_)
        rintro r s₂ ⟨⟨message, rfl⟩, hsettled⟩
        exact .inl ⟨⟨none, rfl⟩, hsettled⟩
      | protocolError msg => exact hagain (by simp [StdioExc.className]) h
      | timeoutError msg => exact hagain (by simp [StdioExc.className]) h
      | processCrashed msg => exact hagain (by simp [StdioExc.className]) h
    · exact .inl ⟨⟨_, rfl⟩, h⟩

/-- What follows the attempts idles. -/
theorem CallEnded.bind {prog : StdioProg α} {f : α → StdioProg β} (h : wp anyMachine prog (CallEnded env s) s)
    (hf : ∀ a, Idles (f a)) : wp anyMachine (prog >>= f) (CallEnded env s) s := by
  refine wp_bind.mpr (wp_mono h ?_)
  rintro r s₁ (⟨⟨a, rfl⟩, hsettled⟩ | ⟨⟨e, rfl⟩, hraise⟩)
  · refine wp_mono (hf a s₁) ?_
    rintro r s₂ ⟨hret, hidle⟩
    exact .inl ⟨hret, hsettled.idle hidle⟩
  · exact .inr ⟨⟨e, rfl⟩, hraise⟩

theorem listTools_ended (hs : Contained env s) : wp anyMachine (listTools env) (CallEnded env s) s := by
  have hnote : ∀ text, Idles (do
      Object.modify fun c => { c with lastError := text }
      pure [] : StdioProg (List MCPToolInfo)) := by
    intro text
    refine Idles.bind ?_ fun _ => .pure _
    exact idles_modify (fun c => ⟨⟨rfl, rfl, rfl⟩, rfl, .inl ⟨rfl, rfl⟩⟩) fun _ => rfl
  refine CallEnded.bind (listAttempts_ended hs fun h => by simp at h) fun result => ?_
  split
  · exact .pure _
  · split
    · exact .pure _
    · exact hnote _
  · exact .pure _
  · exact hnote _

theorem callTool_ended {name : String} {arguments : Dict} (hs : Contained env s) :
    wp anyMachine (callTool env name arguments) (CallEnded env s) s := by
  have hmethod : ("tools/call" : String) ≠ "initialize" := by decide
  refine CallEnded.bind (wp_tryCatch.mpr (wp_mono (attempt_ended hs hmethod) ?_)) fun outcome => ?_
  · have hend : ∀ {e : StdioExc} {reason : String} {s₁ : SessionState},
        wp anyMachine (recordFailure env e reason) (fun r s'' => (∃ m, r = .ok m) ∧ Settled env s s'') s₁ →
        wp anyMachine (do
          let message ← recordFailure env e reason
          pure (.error [("error", .str message)]) : StdioProg (Except Dict PyVal)) (CallEnded env s) s₁ := by
      intro e reason s₁ h
      refine wp_bind.mpr (wp_mono h ?_)
      rintro r s₂ ⟨⟨message, rfl⟩, hsettled⟩
      exact .inl ⟨⟨_, rfl⟩, hsettled⟩
    rintro (e | result) s₁ h
    · cases e with
      | other msg => exact .inr ⟨⟨_, rfl⟩, h⟩
      | configError msg => exact hend (record_settled h)
      | protocolError msg => exact hend (restart_settled (by simp [StdioExc.className]) h)
      | timeoutError msg => exact hend (restart_settled (by simp [StdioExc.className]) h)
      | processCrashed msg => exact hend (restart_settled (by simp [StdioExc.className]) h)
    · exact .inl ⟨⟨_, rfl⟩, h⟩
  · cases outcome with
    | error failure => exact .pure _
    | ok result => exact toolResult_idles

/-! ## Sessions -/

end StdioMCPClient

/-- The calls that need the server. -/
def ClientCall.needsServer : ClientCall → Prop
  | listTools | callTool _ _ => True
  | close | stderrLine _ => False

/-- `list_tools` has returned a list, `call_tool` a dict. -/
def ServedCall.Returns (c : ServedCall) : Prop :=
  match c.call with
  | .listTools => ∃ tools, c.outcome = .ok (.tools tools)
  | .callTool _ _ => ∃ d, c.outcome = .ok (.dict d)
  | .close | .stderrLine _ => c.outcome = .ok .none

namespace StdioMCPClient

variable {D : Type} {os : (o : OsOp) → D → o.Answer × D} {w : ClientWorld D} {call : ClientCall}
  {calls : List ClientCall}

/-- Every call of the session returns, and between the calls no process is held whose handshake has failed. -/
def FailuresContained (env : StdioEnv) (os : (o : OsOp) → D → o.Answer × D) (w : ClientWorld D)
    (calls : List ClientCall) : Prop :=
  (∀ c ∈ (clientSession env os w calls).1, c.Returns) ∧
    ∀ k, NothingLeft ((clientSession env os w (calls.take k)).2.self, (clientSession env os w (calls.take k)).2.log)

/-- No answer in the session escapes, and the arguments of the command can be split where the server is needed. -/
def NothingEscapes (env : StdioEnv) (os : (o : OsOp) → D → o.Answer × D) (w : ClientWorld D)
    (calls : List ClientCall) : Prop :=
  Quietly w.log (clientSession env os w calls).2.log ∧
    ((∃ call ∈ calls, call.needsServer) → ¬ Unsplittable env w.self)

/-- One call that returned. -/
structure Returned (env : StdioEnv) (call : ClientCall) (s : SessionState) (r : Except StdioExc CallResult)
    (s' : SessionState) : Prop where
  returns : ServedCall.Returns ⟨call, r, s'.2.drop s.2.length⟩
  config : SameConfig s'.1 s.1
  quietly : Quietly s.2 s'.2
  splittable : call.needsServer → ¬ Unsplittable env s.1
  contained : Contained env s'

/-- One call that raised. -/
structure Raised (env : StdioEnv) (call : ClientCall) (s : SessionState) (r : Except StdioExc CallResult)
    (s' : SessionState) : Prop where
  raises : ¬ ServedCall.Returns ⟨call, r, s'.2.drop s.2.length⟩
  escapes : Loudly s.2 s'.2 ∨ call.needsServer ∧ Unsplittable env s.1

theorem prog_contained (hs : Contained env s) :
    wp anyMachine (call.prog env) (fun r s' => Returned env call s r s' ∨ Raised env call s r s') s := by
  have hidles : ∀ {prog : StdioProg Unit}, Idles prog → ¬ call.needsServer →
      (∀ r s', r = .ok .none → ServedCall.Returns ⟨call, r, s'⟩) →
      wp anyMachine (prog >>= fun _ => pure .none)
        (fun r s' => Returned env call s r s' ∨ Raised env call s r s') s := by
    intro prog hprog hneeds hreturns
    refine wp_bind.mpr (wp_mono (hprog s) ?_)
    rintro r s' ⟨⟨⟨⟩, rfl⟩, hidle⟩
    exact .inl ⟨hreturns _ _ rfl, hidle.config, hidle.quietly, fun h => absurd h hneeds, hs.idle hidle⟩
  cases call with
  | listTools =>
    refine wp_bind.mpr (wp_mono (listTools_ended hs) ?_)
    rintro r s' (⟨⟨tools, rfl⟩, h⟩ | ⟨⟨e, rfl⟩, h⟩)
    · exact .inl ⟨⟨tools, rfl⟩, h.config, h.quietly, fun _ => h.splittable, h.contained⟩
    · exact .inr ⟨fun ⟨_, hret⟩ => by simp at hret, h.imp id fun hn => ⟨trivial, hn⟩⟩
  | callTool name arguments =>
    refine wp_bind.mpr (wp_mono (callTool_ended hs) ?_)
    rintro r s' (⟨⟨d, rfl⟩, h⟩ | ⟨⟨e, rfl⟩, h⟩)
    · exact .inl ⟨⟨d, rfl⟩, h.config, h.quietly, fun _ => h.splittable, h.contained⟩
    · exact .inr ⟨fun ⟨_, hret⟩ => by simp at hret, h.imp id fun hn => ⟨trivial, hn⟩⟩
  | close => exact hidles cleanupProcess_idles id fun _ _ h => h
  | stderrLine line => exact hidles appendStderr_idles id fun _ _ h => h

theorem serveCall_contained (os : (o : OsOp) → D → o.Answer × D) (call : ClientCall)
    (hs : Contained env (w.self, w.log)) :
    let run := serveCall env os w call
    Returned env call (w.self, w.log) run.1.outcome (run.2.self, run.2.log) ∨
      Raised env call (w.self, w.log) run.1.outcome (run.2.self, run.2.log) := by
  have hlegal : Object.Legal (fun _ (_ : OsOp) => True) w.log := fun _ _ _ _ => trivial
  exact (@Object.run_wp _ _ _ _ _ _ _ _ os _ _ hlegal (prog_contained hs)).1

theorem clientSession_grows : w.log <+: (clientSession env os w calls).2.log := by
  induction calls generalizing w with
  | nil => exact List.prefix_rfl
  | cons call calls ih =>
    have hone : w.log <+: (serveCall env os w call).2.log := Object.log_grows
    exact hone.trans ih

/-- By induction on the calls of the session. -/
theorem failuresContained_iff (hs : Contained env (w.self, w.log)) :
    FailuresContained env os w calls ↔ NothingEscapes env os w calls := by
  induction calls generalizing w with
  | nil =>
    refine ⟨fun _ => ⟨.refl, by simp⟩, fun _ => ⟨by simp [clientSession], fun k => ?_⟩⟩
    rw [List.take_nil]
    exact hs.nothingLeft
  | cons call calls ih =>
    have hgrows : (serveCall env os w call).2.log <+: (clientSession env os w (call :: calls)).2.log :=
      clientSession_grows (w := (serveCall env os w call).2)
    rcases serveCall_contained os call hs with h | h
    · have hsplit : Unsplittable env (serveCall env os w call).2.self ↔ Unsplittable env w.self :=
        unsplittable_congr h.config
      have hleft : FailuresContained env os w (call :: calls) ↔
          FailuresContained env os (serveCall env os w call).2 calls := by
        constructor
        · rintro ⟨hreturns, hnothing⟩
          exact ⟨fun c hc => hreturns c (List.mem_cons_of_mem _ hc), fun k => hnothing (k + 1)⟩
        · rintro ⟨hreturns, hnothing⟩
          refine ⟨fun c hc => ?_, fun k => ?_⟩
          · rcases List.mem_cons.mp hc with rfl | hc
            · exact h.returns
            · exact hreturns c hc
          · cases k with
            | zero => exact hs.nothingLeft
            | succ k => exact hnothing k
      have hright : NothingEscapes env os w (call :: calls) ↔
          NothingEscapes env os (serveCall env os w call).2 calls := by
        constructor
        · rintro ⟨hquiet, hneeds⟩
          refine ⟨hquiet.drop h.quietly.grown hgrows, ?_⟩
          rintro ⟨c, hc, hn⟩ hun
          exact hneeds ⟨c, List.mem_cons_of_mem _ hc, hn⟩ (hsplit.mp hun)
        · rintro ⟨hquiet, hneeds⟩
          refine ⟨h.quietly.trans hquiet, ?_⟩
          rintro ⟨c, hc, hn⟩
          rcases List.mem_cons.mp hc with rfl | hc
          · exact h.splittable hn
          · exact fun hun => hneeds ⟨c, hc, hn⟩ (hsplit.mpr hun)
      rw [hleft, hright]
      exact ih h.contained
    · constructor
      · intro hcontained
        exact absurd (hcontained.1 _ (List.mem_cons_self)) h.raises
      · rintro ⟨hquiet, hneeds⟩
        rcases h.escapes with hloud | ⟨hn, hun⟩
        · exact absurd hquiet (hloud.grow hgrows).not_quietly
        · exact absurd hun (hneeds ⟨call, List.mem_cons_self, hn⟩)

theorem contained_new {serverName command args commandAllowlist clientVersion : String} :
    Contained env (new env serverName command args commandAllowlist clientVersion, []) := by
  refine ⟨⟨fun p hp => ?_, fun p hp => ?_⟩, .of_none rfl⟩
  · obtain ⟨id, params, answer, hmem⟩ := hp
    simp at hmem
  · simp [new] at hp

/-- A system without the program, or with one that answers every request with `[]`. -/
def strangeSystem (installed : Bool) : (o : OsOp) → Unit → o.Answer × Unit
  | .poll _, u => (none, u)
  | .spawn _ _, u => (if installed then none else some "[Errno 2] No such file or directory", u)
  | .write _ _, u => (.written, u)
  | .readline _, u => (.line (.value (.list [])), u)
  | .readStderr _, u => ("", u)
  | .terminate _, u => ((), u)
  | .closeStreams _, u => ((), u)

def plainStdio : StdioEnv where
  unicode := .plain
  shlexSplit s := .ok [s]
  pyStr _ := ""

def newFiles : ClientWorld Unit := ⟨new plainStdio "files" "mcp-server" "" "" "1.0", [], ()⟩

end StdioMCPClient

end AgentHarness
