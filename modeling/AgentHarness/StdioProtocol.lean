import AgentHarness.StdioClient
import Mathlib.Data.List.Induction

/-!
# StdioProtocol — the session that `StdioMCPClient` keeps with its server

The log of a client is what it has asked of the operating system, with the answers.  A request for tools
needs the handshake of its process in the log before it, and its id is above all earlier ones.  These are
what `mayAsk` permits, and `SessionInv` is the invariant that lets every call keep to it, whatever answers:
the flag `initialized` stands for the handshake of the process that the client holds, and the counter for the
ids.  The other thing that is counted along a call is how often it writes `tools/call`.
-/

namespace AgentHarness

open Lib

abbrev OsEvent := Happened OsOp OsOp.Answer

namespace StdioMCPClient

/-- The id of a request that is written. -/
def requestIdOf (e : OsEvent) : Option Nat :=
  match e.op with
  | .write _ (.request id _ _) => some id
  | _ => none

def requestIds (log : List OsEvent) : List Nat := log.filterMap requestIdOf

def writesToolCall (e : OsEvent) : Bool :=
  match e.op with
  | .write _ (.request _ method _) => method = "tools/call"
  | _ => false

/-- The writes of `tools/call`. -/
def toolCalls (log : List OsEvent) : List OsEvent := log.filter writesToolCall

/-- A response to the request `id` that agrees on a version of the protocol. -/
def AgreesVersion (id : Nat) (resp : Dict) : Prop :=
  (PyVal.int id).pyEq (Dict.get resp "id") = true ∧ ∃ result version, Dict.get? resp "result" = some (.dict result) ∧
    Dict.get result "protocolVersion" = .str version ∧ version ∈ supportedProtocolVersions

/-- Process `p` has answered an `initialize` with a supported version, and was then notified. -/
def Handshake (p : Nat) (log : List OsEvent) : Prop :=
  ∃ start id params answer between resp later notified,
    log = start ++ ⟨.write p (.request id "initialize" params), answer⟩ :: between ++
      ⟨.readline p, .line (.value (.dict resp))⟩ :: later ++
      ⟨.write p (.notification "notifications/initialized" []), .written⟩ :: notified ∧ AgreesVersion id resp

/-- What the client may ask next. -/
def mayAsk (log : List OsEvent) : OsOp → Prop
  | .write p (.request id method _) =>
    (∀ i ∈ requestIds log, i < id) ∧ (method = "tools/list" ∨ method = "tools/call" → Handshake p log)
  | _ => True

abbrev SessionState := Object.State StdioMCPClient OsOp OsOp.Answer

structure SessionInv (s : SessionState) : Prop where
  ids : ∀ i ∈ requestIds s.2, i ≤ s.1.requestId
  ready : s.1.initialized = true → 1 ≤ s.1.requestId ∧ ∀ p, s.1.process = some p → Handshake p s.2

/-- The log has grown, by at most `n` writes of `tools/call`. -/
def Spends (base : List OsEvent) (n : Nat) (log : List OsEvent) : Prop :=
  ∃ segment, log = base ++ segment ∧ (toolCalls segment).length ≤ n

variable {env : StdioEnv} {s s' : SessionState} {base log log' : List OsEvent} {p n m : Nat} {o : OsOp}
  {a : o.Answer}

/-! ## The log -/

theorem requestIds_append : requestIds (log ++ log') = requestIds log ++ requestIds log' := List.filterMap_append

theorem Handshake.append (h : Handshake p log) : Handshake p (log ++ log') := by
  obtain ⟨start, id, params, answer, between, resp, later, notified, rfl, hresp⟩ := h
  exact ⟨start, id, params, answer, between, resp, later, notified ++ log', by simp, hresp⟩

theorem Spends.refl : Spends log n log := ⟨[], by simp, Nat.zero_le _⟩

theorem Spends.mono (h : Spends base n log) (hle : n ≤ m) : Spends base m log := by
  obtain ⟨segment, hlog, hlen⟩ := h
  exact ⟨segment, hlog, hlen.trans hle⟩

theorem Spends.trans (h : Spends base n log) (h' : Spends log m log') : Spends base (n + m) log' := by
  obtain ⟨segment, rfl, hlen⟩ := h
  obtain ⟨segment', rfl, hlen'⟩ := h'
  refine ⟨segment ++ segment', by simp, ?_⟩
  unfold toolCalls at *
  rw [List.filter_append, List.length_append]
  omega

/-- The operations that write no request. -/
def quiet : OsOp → Bool
  | .write _ (.request _ _ _) => false
  | _ => true

theorem mayAsk_quiet (h : quiet o = true) : mayAsk log o := by
  unfold quiet at h
  unfold mayAsk
  split
  · cases h
  · trivial

theorem requestIdOf_quiet (h : quiet o = true) : requestIdOf ⟨o, a⟩ = none := by
  unfold quiet at h
  unfold requestIdOf
  dsimp only
  split
  · cases h
  · rfl

theorem writesToolCall_quiet (h : quiet o = true) : writesToolCall ⟨o, a⟩ = false := by
  unfold quiet at h
  unfold writesToolCall
  dsimp only
  split
  · cases h
  · rfl

theorem SessionInv.quiet (h : SessionInv s) (ho : quiet o = true) : SessionInv (s.1, s.2 ++ [⟨o, a⟩]) := by
  refine ⟨fun i hi => h.ids i ?_, fun hinit => ⟨(h.ready hinit).1, fun p hp => ((h.ready hinit).2 p hp).append⟩⟩
  rw [requestIds_append] at hi
  have hnone : requestIds [(⟨o, a⟩ : OsEvent)] = [] := by
    unfold requestIds
    rw [List.filterMap_cons_none (requestIdOf_quiet ho)]
    rfl
  rwa [hnone, List.append_nil] at hi

theorem Spends.quiet (h : Spends base n log) (ho : StdioMCPClient.quiet o = true) :
    Spends base n (log ++ [⟨o, a⟩]) := by
  have hone : Spends log 0 (log ++ [⟨o, a⟩]) := by
    refine ⟨[⟨o, a⟩], rfl, ?_⟩
    unfold toolCalls
    rw [List.filter_cons_of_neg (by rw [writesToolCall_quiet ho]; exact Bool.false_ne_true)]
    exact le_rfl
  exact h.trans hone

/-! ## Programs that write no request -/

/-- A change of attributes that claims no handshake. -/
def Modest (f : StdioMCPClient → StdioMCPClient) : Prop :=
  ∀ c, (f c).requestId = c.requestId ∧
    ((f c).process = c.process ∧ (f c).initialized = c.initialized ∨ (f c).initialized = false)

def SameConfig (c c' : StdioMCPClient) : Prop :=
  c.command = c'.command ∧ c.args = c'.args ∧ c.commandAllowlist = c'.commandAllowlist

/-- A change of attributes that at most lets go of the process. -/
def Tame (f : StdioMCPClient → StdioMCPClient) : Prop :=
  ∀ c, SameConfig (f c) c ∧ (f c).requestId = c.requestId ∧
    ((f c).process = c.process ∧ (f c).initialized = c.initialized ∨
      (f c).process = none ∧ (f c).initialized = false)

theorem Tame.modest {f : StdioMCPClient → StdioMCPClient} (h : Tame f) : Modest f := by
  intro c
  obtain ⟨-, hid, hsame | hgone⟩ := h c
  · exact ⟨hid, .inl hsame⟩
  · exact ⟨hid, .inr hgone.2⟩

/-- Neither a start nor an exchange of lines. -/
def housekeeping : OsOp → Bool
  | .poll _ | .readStderr _ | .terminate _ | .closeStreams _ => true
  | .spawn _ _ | .write _ _ | .readline _ => false

theorem quiet_of_housekeeping (h : housekeeping o = true) : quiet o = true := by
  cases o with
  | write p m => cases h
  | _ => rfl

def calmOp : SelfOp StdioMCPClient OsOp → Prop
  | .get => True
  | .modify f => Tame f
  | .ext o => housekeeping o = true

theorem SessionInv.modest {f : StdioMCPClient → StdioMCPClient} (h : SessionInv s) (hf : Modest f) :
    SessionInv (f s.1, s.2) := by
  obtain ⟨hid, hrest⟩ := hf s.1
  refine ⟨fun i hi => ?_, fun hinit => ?_⟩
  · have := h.ids i hi
    show i ≤ (f s.1).requestId
    omega
  · have hinit : (f s.1).initialized = true := hinit
    rcases hrest with ⟨hproc, hsame⟩ | hfalse
    · rw [hsame] at hinit
      obtain ⟨hone, hhand⟩ := h.ready hinit
      refine ⟨?_, fun p hp => hhand p ?_⟩
      · show 1 ≤ (f s.1).requestId
        omega
      · rw [← hproc]
        exact hp
    · rw [hinit] at hfalse
      cases hfalse

/-- **Calm programs.**  They keep the invariant, and write nothing. -/
theorem wp_calm {α : Type} {prog : StdioProg α} (hu : prog.Uses calmOp) (hs : SessionInv s) (hb : Spends base n s.2) :
    wp (Object.machine mayAsk) prog (fun _ s' => SessionInv s' ∧ Spends base n s'.2) s := by
  refine wp_of_keeps (I := fun s' => SessionInv s' ∧ Spends base n s'.2) ?_ hu ⟨hs, hb⟩
  rintro o ho s ⟨hs, hb⟩
  cases o with
  | get =>
    refine ⟨trivial, ?_⟩
    rintro r s' ⟨-, rfl⟩
    exact ⟨hs, hb⟩
  | modify f =>
    refine ⟨trivial, ?_⟩
    rintro r s' ⟨-, rfl⟩
    exact ⟨hs.modest (Tame.modest ho), hb⟩
  | ext o =>
    have ho : quiet o = true := quiet_of_housekeeping ho
    refine ⟨mayAsk_quiet ho, ?_⟩
    rintro r s' ⟨a, -, rfl⟩
    exact ⟨hs.quiet ho, hb.quiet ho⟩

theorem uses_self : (Object.self : StdioProg StdioMCPClient).Uses calmOp := Prog.uses_call.mpr trivial

theorem uses_modify {f : StdioMCPClient → StdioMCPClient} (hf : Tame f) :
    (Object.modify f : StdioProg Unit).Uses calmOp := Prog.uses_call.mpr hf

theorem appendStderr_calm {chunk : String} : (appendStderr chunk).Uses calmOp := by
  unfold appendStderr
  split
  · trivial
  · exact uses_modify fun c => ⟨⟨rfl, rfl, rfl⟩, rfl, .inl ⟨rfl, rfl⟩⟩

theorem collectStderrIfAvailable_calm : collectStderrIfAvailable.Uses calmOp := by
  refine uses_self.bind fun c => ?_
  cases c.process with
  | none => trivial
  | some p =>
    refine Prog.Uses.bind (Prog.uses_call.mpr rfl) fun exit => ?_
    cases exit with
    | none => trivial
    | some code => exact Prog.Uses.bind (Prog.uses_call.mpr rfl) fun _ => appendStderr_calm

theorem cleanupProcess_calm {reason : String} {terminate : Bool} : (cleanupProcess reason terminate).Uses calmOp := by
  refine uses_self.bind fun c => ?_
  have hlast : (Object.modify fun c : StdioMCPClient => { c with
      process := none, started := false, initialized := false,
      lastRestartReason := if reason = "" then c.lastRestartReason else reason } : StdioProg Unit).Uses calmOp :=
    uses_modify fun c => ⟨⟨rfl, rfl, rfl⟩, rfl, .inr ⟨rfl, rfl⟩⟩
  cases c.process with
  | none => exact hlast
  | some p =>
    cases terminate with
    | false => exact Prog.Uses.bind (Prog.uses_call.mpr rfl) fun _ => hlast
    | true =>
      refine Prog.Uses.bind (Prog.uses_call.mpr rfl) fun exit => ?_
      split
      · exact Prog.Uses.bind (Prog.uses_call.mpr rfl) fun _ => Prog.Uses.bind (Prog.uses_call.mpr rfl) fun _ => hlast
      · exact Prog.Uses.bind (Prog.uses_call.mpr rfl) fun _ => hlast

theorem recordFailure_calm {exc : StdioExc} {reason : String} : (recordFailure env exc reason).Uses calmOp := by
  refine Prog.Uses.bind (uses_modify fun c => ⟨⟨rfl, rfl, rfl⟩, rfl, .inl ⟨rfl, rfl⟩⟩) fun _ => ?_
  refine collectStderrIfAvailable_calm.bind fun _ => uses_self.bind fun c => ?_
  refine Prog.Uses.bind (uses_modify fun c => ⟨⟨rfl, rfl, rfl⟩, rfl, .inl ⟨rfl, rfl⟩⟩) fun _ => ?_
  split
  · trivial
  · refine Prog.Uses.bind (uses_modify fun c => ⟨⟨rfl, rfl, rfl⟩, rfl, .inl ⟨rfl, rfl⟩⟩) fun _ => ?_
    exact cleanupProcess_calm.bind fun _ => trivial

theorem mapToolErrorResult_calm {result : Dict} : (mapToolErrorResult env result).Uses calmOp := by
  refine uses_self.bind fun c => ?_
  exact Prog.Uses.bind (uses_modify fun _ => ⟨⟨rfl, rfl, rfl⟩, rfl, .inl ⟨rfl, rfl⟩⟩) fun _ => trivial

/-! ## Failures -/

/-- An exception that the client catches has a text. -/
def Told : StdioExc → Prop
  | .other _ => True
  | e => e.text ≠ ""

theorem formatErrorWithStderr_ne {c : StdioMCPClient} {message : String} (h : message ≠ "") :
    formatErrorWithStderr env c message ≠ "" := by
  unfold formatErrorWithStderr
  split
  · exact h
  · split
    · exact h
    · simp [h]

theorem recordFailure_spec {exc : StdioExc} {reason : String} (hs : SessionInv s) (hb : Spends base n s.2)
    (hexc : exc.text ≠ "") :
    wp (Object.machine mayAsk) (recordFailure env exc reason)
      (fun r s' => (SessionInv s' ∧ Spends base n s'.2) ∧ ∀ message, r = .ok message → message ≠ "") s := by
  unfold recordFailure
  refine Object.wp_modify_bind.mpr ?_
  have hs := hs.modest (f := fun c => { c with failureCount := c.failureCount + 1 }) fun c => ⟨rfl, .inl ⟨rfl, rfl⟩⟩
  refine wp_bind.mpr (wp_mono (wp_calm collectStderrIfAvailable_calm hs hb) ?_)
  rintro (e | ⟨⟩) s' ⟨hs, hb⟩
  · exact ⟨⟨hs, hb⟩, fun _ h => absurd h (by simp)⟩
  · refine Object.wp_self_bind.mpr (Object.wp_modify_bind.mpr ?_)
    have hs := hs.modest
      (f := fun c => { c with lastError := formatErrorWithStderr env s'.1 exc.text }) fun c => ⟨rfl, .inl ⟨rfl, rfl⟩⟩
    have hne : formatErrorWithStderr env s'.1 exc.text ≠ "" := formatErrorWithStderr_ne hexc
    split
    · refine ⟨⟨hs, hb⟩, fun message h => ?_⟩
      obtain rfl := Except.ok.inj h
      exact hne
    · have hcalm : (Object.modify (fun c : StdioMCPClient => { c with restartCount := c.restartCount + 1 }) >>= fun _ =>
          cleanupProcess reason true : StdioProg Unit).Uses calmOp :=
        Prog.Uses.bind (uses_modify fun c => ⟨⟨rfl, rfl, rfl⟩, rfl, .inl ⟨rfl, rfl⟩⟩) fun _ => cleanupProcess_calm
      rw [← Prog.bind_assoc']
      refine wp_bind.mpr (wp_mono (wp_calm hcalm hs hb) ?_)
      rintro (e | ⟨⟩) s'' hkept
      · exact ⟨hkept, fun _ h => absurd h (by simp)⟩
      · refine ⟨hkept, fun message h => ?_⟩
        obtain rfl := Except.ok.inj h
        exact hne

/-! ## Requests -/

theorem responseResult_ok {serverName : String} {id : Nat} {resp r : PyVal}
    (h : responseResult env serverName id resp = .ok r) :
    ∃ d, resp = .dict d ∧ (PyVal.int id).pyEq (Dict.get d "id") = true ∧ Dict.get? d "result" = some r := by
  unfold responseResult at h
  split at h
  · rename_i d
    split at h
    · cases h
    · split at h
      · cases h
      · rename_i hid
        have hid : (PyVal.int id).pyEq (Dict.get d "id") = true := by simpa using hid
        split at h
        · split at h
          · cases h
          · rename_i result hresult
            obtain rfl := Except.ok.inj h
            exact ⟨d, rfl, hid, hresult⟩
        · cases h
        · cases h
  · cases h

theorem responseResult_told {serverName : String} {id : Nat} {resp : PyVal} {e : StdioExc}
    (h : responseResult env serverName id resp = .error e) : Told e := by
  unfold responseResult at h
  split at h
  · split at h
    · obtain rfl := Except.error.inj h
      simp [Told, StdioExc.text, toString]
    · split at h
      · obtain rfl := Except.error.inj h
        simp [Told, StdioExc.text, toString]
      · split at h
        · split at h
          · obtain rfl := Except.error.inj h
            simp [Told, StdioExc.text, toString]
          · cases h
        · obtain rfl := Except.error.inj h
          simp [Told, StdioExc.text]
        · obtain rfl := Except.error.inj h
          simp [Told, StdioExc.text]
  · obtain rfl := Except.error.inj h
    trivial

theorem readResponse_ok {serverName : String} {id : Nat} {answer : ReadAnswer} {r : PyVal}
    (h : readResponse env serverName id answer = .ok r) :
    ∃ d, answer = .line (.value (.dict d)) ∧ (PyVal.int id).pyEq (Dict.get d "id") = true ∧
      Dict.get? d "result" = some r := by
  unfold readResponse at h
  split at h
  · cases h
  · cases h
  · cases h
  · cases h
  · cases h
  · obtain ⟨d, rfl, hid, hresult⟩ := responseResult_ok h
    exact ⟨d, rfl, hid, hresult⟩

theorem readResponse_told {serverName : String} {id : Nat} {answer : ReadAnswer} {e : StdioExc}
    (h : readResponse env serverName id answer = .error e) : Told e := by
  unfold readResponse at h
  split at h
  all_goals first
    | exact responseResult_told h
    | obtain rfl := Except.error.inj h
      simp [Told, StdioExc.text, toString]

theorem writeLine_spec {msg : WireMessage} (hmay : mayAsk s.2 (.write p msg)) :
    wp (Object.machine mayAsk) (writeLine p msg)
      (fun r s' => ∃ answer, s' = (s.1, s.2 ++ [⟨.write p msg, answer⟩]) ∧
        (r = .ok () ∧ answer = .written ∨ ∃ e, r = .error e ∧ Told e)) s := by
  refine Object.wp_self_bind.mpr (Object.wp_ext_bind.mpr ⟨hmay, fun answer => ?_⟩)
  rcases answer with _ | _ | msg
  · exact ⟨.written, rfl, .inl ⟨rfl, rfl⟩⟩
  · exact ⟨.osError, rfl, .inr ⟨_, rfl, by simp [Told, StdioExc.text, toString]⟩⟩
  · exact ⟨.raised msg, rfl, .inr ⟨_, rfl, trivial⟩⟩

/-- The request was written, and a response to it was read. -/
def Answered (s : SessionState) (method : String) (params : Dict) (result : PyVal) (log : List OsEvent) : Prop :=
  ∃ p resp, s.1.process = some p ∧
    log = s.2 ++ [⟨.poll p, none⟩, ⟨.write p (.request (s.1.requestId + 1) method params), .written⟩,
      ⟨.readline p, .line (.value (.dict resp))⟩] ∧
    (PyVal.int (s.1.requestId + 1 : Nat)).pyEq (Dict.get resp "id") = true ∧ Dict.get? resp "result" = some result

/-- What a request leaves, with its result. -/
structure Requested (s : SessionState) (method : String) (params : Dict) (r : Except StdioExc PyVal)
    (s' : SessionState) : Prop where
  inv : SessionInv s'
  spends : Spends s.2 (if method = "tools/call" then 1 else 0) s'.2
  process : s'.1.process = s.1.process
  initialized : s'.1.initialized = s.1.initialized
  answered : ∀ result, r = .ok result → Answered s method params result s'.2
  told : ∀ e, r = .error e → Told e

/-- The counter goes up. -/
def nextRequest (c : StdioMCPClient) : StdioMCPClient :=
  { c with requestId := c.requestId + 1, requestCount := c.requestCount + 1 }

theorem SessionInv.nextRequest (h : SessionInv s) : SessionInv (nextRequest s.1, s.2) := by
  refine ⟨fun i hi => ?_, fun hinit => ?_⟩
  · have := h.ids i hi
    show i ≤ s.1.requestId + 1
    omega
  · obtain ⟨-, hhand⟩ := h.ready hinit
    refine ⟨?_, hhand⟩
    show 1 ≤ s.1.requestId + 1
    omega

/-- The request is written; its id is the counter, and above all earlier ones. -/
theorem SessionInv.wrote {method : String} {params : Dict} {answer : WriteAnswer} (h : SessionInv s)
    (hlt : s.1.requestId = n + 1) : SessionInv (s.1, s.2 ++ [⟨.write p (.request (n + 1) method params), answer⟩]) := by
  refine ⟨fun i hi => ?_, fun hinit => ⟨(h.ready hinit).1, fun p hp => ((h.ready hinit).2 p hp).append⟩⟩
  rw [requestIds_append] at hi
  rcases List.mem_append.mp hi with hi | hi
  · exact h.ids i hi
  · obtain rfl : i = n + 1 := by simpa [requestIds, requestIdOf] using hi
    exact hlt.ge

theorem spends_request {method : String} {params : Dict} {answer : WriteAnswer} {id : Nat} :
    Spends log (if method = "tools/call" then 1 else 0)
      (log ++ [⟨.write p (.request id method params), answer⟩]) := by
  refine ⟨_, rfl, ?_⟩
  by_cases h : method = "tools/call" <;> simp [toolCalls, writesToolCall, h]

theorem request_spec {method : String} {params : Dict} (hs : SessionInv s)
    (hready : method = "tools/list" ∨ method = "tools/call" → s.1.initialized = true) :
    wp (Object.machine mayAsk) (request env method params) (Requested s method params) s := by
  refine Object.wp_self_bind.mpr ?_
  rcases hproc : s.1.process with _ | p
  · refine ⟨hs, .refl, rfl, rfl, fun _ h => absurd h (by simp), fun e h => ?_⟩
    obtain rfl := Except.error.inj h
    simp [Told, StdioExc.text, toString]
  refine Object.wp_ext_bind.mpr ⟨trivial, fun exit => ?_⟩
  have hpoll : SessionInv (s.1, s.2 ++ [⟨.poll p, exit⟩]) := hs.quiet rfl
  have hquiet : ∀ {k log a}, Spends s.2 k log → Spends s.2 k (log ++ [⟨.poll p, a⟩]) := fun h => h.quiet rfl
  cases exit with
  | some code =>
    refine Object.wp_ext_bind.mpr ⟨trivial, fun code' => ?_⟩
    refine ⟨hpoll.quiet rfl, hquiet (hquiet .refl), rfl, rfl, fun _ h => absurd h (by simp), fun e h => ?_⟩
    obtain rfl := Except.error.inj h
    simp [Told, StdioExc.text]
  | none =>
    refine Object.wp_modify_bind.mpr ?_
    have hnext := hpoll.nextRequest
    have hmay : mayAsk (s.2 ++ [⟨.poll p, none⟩]) (.write p (.request (s.1.requestId + 1) method params)) := by
      refine ⟨fun i hi => ?_, fun hm => ?_⟩
      · have := hpoll.ids i hi
        exact Nat.lt_succ_of_le this
      · exact (hpoll.ready (hready hm)).2 p hproc
    refine wp_bind.mpr (wp_mono (writeLine_spec hmay) ?_)
    rintro r s' ⟨answer, rfl, hr⟩
    have hwrote : SessionInv (nextRequest s.1, s.2 ++ [⟨.poll p, none⟩] ++
        [⟨.write p (.request (s.1.requestId + 1) method params), answer⟩]) := hnext.wrote rfl
    have hspent : Spends s.2 (if method = "tools/call" then 1 else 0)
        (s.2 ++ [⟨.poll p, none⟩] ++ [⟨.write p (.request (s.1.requestId + 1) method params), answer⟩]) := by
      have hfirst : Spends s.2 0 (s.2 ++ [(⟨.poll p, none⟩ : OsEvent)]) := hquiet .refl
      simpa only [Nat.zero_add] using hfirst.trans spends_request
    rcases hr with ⟨rfl, rfl⟩ | ⟨e, rfl, htold⟩
    · refine Object.wp_ext_bind.mpr ⟨trivial, fun line => ?_⟩
      rcases hread : readResponse env s.1.serverName (s.1.requestId + 1) line with e | v
      · refine ⟨hwrote.quiet rfl, hspent.quiet rfl, rfl, rfl, fun _ h => absurd h (by simp), fun e' h => ?_⟩
        obtain rfl := Except.error.inj h
        exact readResponse_told hread
      · refine ⟨hwrote.quiet rfl, hspent.quiet rfl, rfl, rfl, fun result h => ?_, fun _ h => absurd h (by simp)⟩
        obtain rfl := Except.ok.inj h
        obtain ⟨resp, rfl, hid, hresult⟩ := readResponse_ok hread
        exact ⟨p, resp, hproc, by simp, hid, hresult⟩
    · refine ⟨hwrote, hspent, rfl, rfl, fun _ h => absurd h (by simp), fun e' h => ?_⟩
      obtain rfl := Except.error.inj h
      exact htold

/-! ## The handshake -/

theorem checkVersion_ok {serverName : String} {result : PyVal} (h : checkVersion env serverName result = .ok ()) :
    ∃ d version, result = .dict d ∧ Dict.get d "protocolVersion" = .str version ∧
      version ∈ supportedProtocolVersions := by
  unfold checkVersion at h
  split at h
  · rename_i d
    split at h
    · rename_i version hversion
      split at h
      · cases h
      · split at h
        · rename_i hmem
          exact ⟨d, version, rfl, hversion, hmem⟩
        · cases h
    · cases h
  · cases h

theorem checkVersion_told {serverName : String} {result : PyVal} {e : StdioExc}
    (h : checkVersion env serverName result = .error e) : Told e := by
  unfold checkVersion at h
  split at h
  · split at h
    · split at h
      · obtain rfl := Except.error.inj h
        simp [Told, StdioExc.text, toString]
      · split at h
        · cases h
        · obtain rfl := Except.error.inj h
          simp [Told, StdioExc.text]
    · obtain rfl := Except.error.inj h
      simp [Told, StdioExc.text, toString]
  · obtain rfl := Except.error.inj h
    simp [Told, StdioExc.text]

/-- What a start of the session leaves. -/
structure SessionStarted (s : SessionState) (r : Except StdioExc Unit) (s' : SessionState) : Prop where
  inv : SessionInv s'
  spends : Spends s.2 0 s'.2
  ready : r = .ok () → s'.1.initialized = true
  told : ∀ e, r = .error e → Told e

theorem SessionStarted.failed {e : StdioExc} (hs : SessionInv s') (hb : Spends s.2 0 s'.2) (he : Told e) :
    SessionStarted s (.error e) s' := by
  refine ⟨hs, hb, fun h => absurd h (by simp), fun e' h => ?_⟩
  obtain rfl := Except.error.inj h
  exact he

theorem initializeSession_spec (hs : SessionInv s) :
    wp (Object.machine mayAsk) (initializeSession env) (SessionStarted s) s := by
  refine Object.wp_self_bind.mpr ?_
  have hmethod : ("initialize" : String) = "tools/list" ∨ ("initialize" : String) = "tools/call" →
      s.1.initialized = true := by
    rintro (h | h)
    · exact absurd h (by decide)
    · exact absurd h (by decide)
  refine wp_bind.mpr (wp_mono (request_spec hs hmethod) ?_)
  rintro (e | result) s' hreq
  · exact .failed hreq.inv hreq.spends (hreq.told e rfl)
  obtain ⟨p, resp, hproc, hlog, hid, hresult⟩ := hreq.answered result rfl
  have hproc' : s'.1.process = some p := hreq.process.trans hproc
  show wp (Object.machine mayAsk) (Prog.ofExcept (checkVersion env s.1.serverName result) >>= fun _ =>
    notify "notifications/initialized" [] >>= fun _ => Object.modify fun c => { c with initialized := true })
    (SessionStarted s) s'
  rcases hcheck : checkVersion env s.1.serverName result with e | ⟨⟩
  · exact SessionStarted.failed hreq.inv hreq.spends (checkVersion_told hcheck)
  obtain ⟨d, version, rfl, hversion, hsupported⟩ := checkVersion_ok hcheck
  show wp (Object.machine mayAsk) (notify "notifications/initialized" [] >>= fun _ =>
    Object.modify fun c => { c with initialized := true }) (SessionStarted s) s'
  refine wp_bind.mpr (Object.wp_self_bind.mpr ?_)
  rw [hproc']
  have hmay : mayAsk s'.2 (.write p (.notification "notifications/initialized" [])) := trivial
  refine wp_mono (writeLine_spec hmay) ?_
  rintro r s'' ⟨answer, rfl, ⟨rfl, rfl⟩ | ⟨e, rfl, htold⟩⟩
  · refine Object.wp_modify.mpr ?_
    have hhand : Handshake p (s'.2 ++ [⟨.write p (.notification "notifications/initialized" []), .written⟩]) := by
      refine ⟨s.2 ++ [⟨.poll p, none⟩], s.1.requestId + 1, initializeParams s.1.clientVersion, .written, [], resp, [],
        [], ?_, hid, d, version, hresult, hversion, hsupported⟩
      rw [hlog]
      simp
    have hkeep := hreq.inv.quiet (o := .write p (.notification "notifications/initialized" [])) (a := .written) rfl
    have hone : 1 ≤ s'.1.requestId := by
      have : s.1.requestId + 1 ∈ requestIds s'.2 := by
        rw [hlog, requestIds_append]
        simp [requestIds, requestIdOf]
      have := hreq.inv.ids _ this
      omega
    refine ⟨⟨hkeep.ids, fun _ => ⟨hone, fun p' hp' => ?_⟩⟩, hreq.spends.quiet rfl, fun _ => rfl,
      fun _ h => absurd h (by simp)⟩
    obtain rfl : p = p' := Option.some.inj (hproc'.symm.trans hp')
    exact hhand
  · exact .failed (hreq.inv.quiet rfl) (hreq.spends.quiet rfl) htold

theorem ensureConfigured_spec :
    wp (Object.machine mayAsk) (ensureConfigured env) (fun r s' => s' = s ∧ ∀ e, r = .error e → Told e) s := by
  refine Object.wp_self_bind.mpr ?_
  split
  · refine ⟨rfl, fun e h => ?_⟩
    obtain rfl := Except.error.inj h
    simp [Told, StdioExc.text, toString]
  · dsimp only
    split
    · refine ⟨rfl, fun e h => ?_⟩
      obtain rfl := Except.error.inj h
      simp [Told, StdioExc.text, toString]
    · exact ⟨rfl, fun e h => absurd h (by simp)⟩

theorem alive_spec (hs : SessionInv s) (hb : Spends base n s.2) :
    wp (Object.machine mayAsk) alive
      (fun r s' => (SessionInv s' ∧ Spends base n s'.2) ∧ ∃ up, r = .ok up) s := by
  refine Object.wp_self_bind.mpr ?_
  cases s.1.process with
  | none => exact ⟨⟨hs, hb⟩, false, rfl⟩
  | some p =>
    refine Object.wp_ext_bind.mpr ⟨trivial, fun exit => ?_⟩
    exact ⟨⟨hs.quiet rfl, hb.quiet rfl⟩, _, rfl⟩

theorem startProcess_spec (hs : SessionInv s) (hb : Spends base n s.2) :
    wp (Object.machine mayAsk) (startProcess env)
      (fun r s' => (SessionInv s' ∧ Spends base n s'.2) ∧ ∀ e, r = .error e → Told e) s := by
  refine wp_bind.mpr (wp_mono (alive_spec hs hb) ?_)
  rintro r s' ⟨⟨hs, hb⟩, up, rfl⟩
  cases up with
  | true => exact ⟨⟨hs, hb⟩, fun e h => absurd h (by simp)⟩
  | false =>
    refine Object.wp_self_bind.mpr ?_
    rcases buildCmdline env s'.1 with msg | cmdline
    · refine ⟨⟨hs, hb⟩, fun e h => ?_⟩
      obtain rfl := Except.error.inj h
      trivial
    · refine Object.wp_ext_bind.mpr ⟨trivial, fun failure => ?_⟩
      have hspawn := hs.quiet (o := .spawn s'.1.processes cmdline) (a := failure) rfl
      cases failure with
      | some msg =>
        refine ⟨⟨hspawn, hb.quiet rfl⟩, fun e h => ?_⟩
        obtain rfl := Except.error.inj h
        trivial
      | none =>
        have hmodest : Modest fun c => { c with
            process := some c.processes, processes := c.processes + 1, started := true, initialized := false } :=
          fun c => ⟨rfl, .inr rfl⟩
        exact Object.wp_modify.mpr ⟨⟨hspawn.modest hmodest, hb.quiet rfl⟩, fun e h => absurd h (by simp)⟩

theorem ensureStarted_spec (hs : SessionInv s) :
    wp (Object.machine mayAsk) (ensureStarted env) (SessionStarted s) s := by
  have hopen : ∀ s' : SessionState, SessionInv s' → Spends s.2 0 s'.2 →
      wp (Object.machine mayAsk) (do
        let c ← Object.self
        if c.initialized then pure () else initializeSession env : StdioProg Unit) (SessionStarted s) s' := by
    intro s' hs hb
    refine Object.wp_self_bind.mpr ?_
    split
    · rename_i hinit
      exact ⟨hs, hb, fun _ => hinit, fun e h => absurd h (by simp)⟩
    · refine wp_mono (initializeSession_spec hs) fun r s'' h => ?_
      exact ⟨h.inv, by simpa only [Nat.zero_add] using hb.trans h.spends, h.ready, h.told⟩
  refine wp_bind.mpr (wp_mono ensureConfigured_spec ?_)
  rintro (e | ⟨⟩) s' ⟨rfl, htold⟩
  · exact SessionStarted.failed hs .refl (htold e rfl)
  have hbase : Spends s'.2 0 s'.2 := .refl
  refine wp_bind.mpr (wp_mono (alive_spec hs hbase) ?_)
  rintro r s₁ ⟨⟨hs₁, hb₁⟩, up, rfl⟩
  cases up with
  | true => exact hopen s₁ hs₁ hb₁
  | false =>
    refine wp_bind.mpr (wp_mono (startProcess_spec hs₁ hb₁) ?_)
    rintro (e | ⟨⟩) s₂ ⟨⟨hs₂, hb₂⟩, htold⟩
    · exact SessionStarted.failed hs₂ hb₂ (htold e rfl)
    · exact hopen s₂ hs₂ hb₂

/-! ## The calls -/

theorem listAttempts_spec (hs : SessionInv s) (hb : Spends base 0 s.2) (left : Nat) :
    wp (Object.machine mayAsk) (listAttempts env left) (fun _ s' => SessionInv s' ∧ Spends base 0 s'.2) s := by
  induction left generalizing s with
  | zero => exact ⟨hs, hb⟩
  | succ left ih =>
    refine wp_tryCatch.mpr ?_
    have hattempt : wp (Object.machine mayAsk) (do
        ensureStarted env
        let result ← request env "tools/list" []
        pure (some result) : StdioProg (Option PyVal))
        (fun r s' => (SessionInv s' ∧ Spends base 0 s'.2) ∧ ∀ e, r = .error e → Told e) s := by
      refine wp_bind.mpr (wp_mono (ensureStarted_spec hs) ?_)
      rintro (e | ⟨⟩) s' h
      · exact ⟨⟨h.inv, hb.trans h.spends⟩, fun e' he => Except.error.inj he ▸ h.told e rfl⟩
      refine wp_bind.mpr (wp_mono (request_spec h.inv fun _ => h.ready rfl) ?_)
      rintro (e | result) s'' hreq
      · exact ⟨⟨hreq.inv, (hb.trans h.spends).trans hreq.spends⟩, fun e' he => Except.error.inj he ▸ hreq.told e rfl⟩
      · exact ⟨⟨hreq.inv, (hb.trans h.spends).trans hreq.spends⟩, fun e' he => absurd he (by simp)⟩
    refine wp_mono hattempt ?_
    rintro (e | result) s' ⟨⟨hs', hb'⟩, htold⟩
    · have htold := htold e rfl
      cases e with
      | other msg => exact ⟨hs', hb'⟩
      | configError msg =>
        refine wp_bind.mpr (wp_mono (recordFailure_spec hs' hb' htold) ?_)
        rintro (e | message) s'' ⟨hkept, -⟩
        · exact hkept
        · exact hkept
      | protocolError msg | timeoutError msg | processCrashed msg =>
        refine wp_bind.mpr (wp_mono (recordFailure_spec hs' hb' htold) ?_)
        rintro (e | message) s'' ⟨hkept, -⟩
        · exact hkept
        · exact ih hkept.1 hkept.2
    · exact ⟨hs', hb'⟩

theorem listTools_spec (hs : SessionInv s) :
    wp (Object.machine mayAsk) (listTools env) (fun _ s' => SessionInv s' ∧ Spends s.2 0 s'.2) s := by
  have hnote : ∀ (s' : SessionState) (text : String), SessionInv s' ∧ Spends s.2 0 s'.2 →
      wp (Object.machine mayAsk) (do
        Object.modify fun c => { c with lastError := text }
        pure [] : StdioProg (List MCPToolInfo)) (fun _ s' => SessionInv s' ∧ Spends s.2 0 s'.2) s' := by
    rintro s' text ⟨hs', hb'⟩
    exact wp_calm (Prog.Uses.bind (uses_modify fun c => ⟨⟨rfl, rfl, rfl⟩, rfl, .inl ⟨rfl, rfl⟩⟩) fun _ => trivial) hs' hb'
  refine wp_bind.mpr (wp_mono (listAttempts_spec hs .refl 2) ?_)
  rintro (e | result) s' hkept
  · exact hkept
  dsimp only
  split
  · exact hkept
  · split
    · exact hkept
    · exact hnote s' _ hkept
  · exact hkept
  · exact hnote s' _ hkept

/-- The id of the request itself, as a number. -/
def CarriesId (id : Nat) (resp : Dict) : Prop :=
  Dict.get resp "id" = .int id ∨ Dict.get resp "id" = .float (id : Int)

/-- The call has written a `tools/call`, and read a response with the id of that request. -/
def OwnAnswer (name : String) (arguments : Dict) (segment : List OsEvent) (result : PyVal) : Prop :=
  ∃ start p id resp,
    segment = start ++ [⟨.write p (.request id "tools/call" [("name", .str name), ("arguments", .dict arguments)]),
      .written⟩, ⟨.readline p, .line (.value (.dict resp))⟩] ∧
    CarriesId id resp ∧ Dict.get? resp "result" = some result

/-- The dict that is returned is the result of that response, or holds it as its content. -/
def FromOwnResponse (name : String) (arguments : Dict) (segment : List OsEvent) (d : Dict) : Prop :=
  ∃ result, OwnAnswer name arguments segment result ∧
    (result = .dict d ∨ (∀ r, result ≠ .dict r) ∧ d = [("content", result)])

theorem carriesId_of_pyEq {id : Nat} {resp : Dict} (hid : 2 ≤ id)
    (h : (PyVal.int id).pyEq (Dict.get resp "id") = true) : CarriesId id resp := by
  unfold CarriesId
  simp only [PyVal.pyEq, beq_iff_eq] at h
  generalize Dict.get resp "id" = v at h
  cases v with
  | bool b =>
    -- the ids 0 and 1 are taken by the handshakes
    have hnum : ((if b then 1 else 0 : Int) : Rat) = ((id : Int) : Rat) := by
      cases b <;> simpa [PyVal.number?] using h
    have hnum : (if b then 1 else 0 : Int) = id := by exact_mod_cast hnum
    split at hnum <;> omega
  | int i =>
    have hnum : (i : Rat) = ((id : Int) : Rat) := by simpa [PyVal.number?] using h
    have hnum : i = (id : Int) := by exact_mod_cast hnum
    exact .inl (by rw [hnum])
  | float q =>
    have hnum : q = ((id : Int) : Rat) := by simpa [PyVal.number?] using h
    exact .inr (by rw [hnum])
  | null | str _ | list _ | dict _ | object _ => simp [PyVal.number?] at h

/-- What a call of `call_tool` leaves. -/
structure ToolCalled (s : SessionState) (name : String) (arguments : Dict) (r : Except StdioExc Dict)
    (s' : SessionState) : Prop where
  inv : SessionInv s'
  spends : Spends s.2 1 s'.2
  own : ∀ d, r = .ok d → (Dict.get d "error").truthy = false →
    ∃ segment, s'.2 = s.2 ++ segment ∧ FromOwnResponse name arguments segment d

/-- What the attempt of a call leaves. -/
structure CallAttempted (s : SessionState) (name : String) (arguments : Dict) (r : Except StdioExc (Except Dict PyVal))
    (s' : SessionState) : Prop where
  inv : SessionInv s'
  spends : Spends s.2 1 s'.2
  told : ∀ e, r = .error e → Told e
  own : ∀ x, r = .ok x → ∃ result segment, x = .ok result ∧ s'.2 = s.2 ++ segment ∧
    OwnAnswer name arguments segment result

theorem callAttempt_spec {name : String} {arguments : Dict} (hs : SessionInv s) :
    wp (Object.machine mayAsk) (do
      ensureStarted env
      let result ← request env "tools/call" [("name", .str name), ("arguments", .dict arguments)]
      pure (.ok result) : StdioProg (Except Dict PyVal)) (CallAttempted s name arguments) s := by
  refine wp_bind.mpr (wp_mono (ensureStarted_spec hs) ?_)
  rintro (e | ⟨⟩) s' h
  · exact ⟨h.inv, h.spends.mono (Nat.zero_le 1), fun e' he => Except.error.inj he ▸ h.told e rfl,
      fun _ hx => absurd hx (by simp)⟩
  have hready := h.inv.ready (h.ready rfl)
  refine wp_bind.mpr (wp_mono (request_spec h.inv fun _ => h.ready rfl) ?_)
  rintro (e | result) s'' hreq
  · exact ⟨hreq.inv, h.spends.trans hreq.spends, fun e' he => Except.error.inj he ▸ hreq.told e rfl,
      fun _ hx => absurd hx (by simp)⟩
  · refine ⟨hreq.inv, h.spends.trans hreq.spends, fun e' he => absurd he (by simp), fun x hx => ?_⟩
    obtain rfl := Except.ok.inj hx
    obtain ⟨p, resp, -, hlog, hid, hresult⟩ := hreq.answered result rfl
    obtain ⟨segment, hsegment, -⟩ := h.spends
    have hone : 1 ≤ s'.1.requestId := hready.1
    refine ⟨result, segment ++ [⟨.poll p, none⟩] ++ _, rfl, ?_, segment ++ [⟨.poll p, none⟩], p, s'.1.requestId + 1,
      resp, rfl, carriesId_of_pyEq (by omega) hid, hresult⟩
    rw [hlog, hsegment]
    simp

/-- A dict with a text for an error is not taken for a result. -/
theorem ToolCalled.failed {name : String} {arguments : Dict} {message : String} {rest : Dict} (hs : SessionInv s')
    (hb : Spends s.2 1 s'.2) (hmessage : message ≠ "") :
    ToolCalled s name arguments (.ok (("error", .str message) :: rest)) s' := by
  refine ⟨hs, hb, fun d h htruthy => ?_⟩
  obtain rfl := Except.ok.inj h
  have htrue : (PyVal.str message).truthy = true := by simp [hmessage]
  have hfalse : (PyVal.str message).truthy = false := by simpa [Dict.get, Dict.getD] using htruthy
  rw [htrue] at hfalse
  cases hfalse

theorem toolResult_spec {name : String} {arguments : Dict} {result : PyVal} {segment : List OsEvent}
    (hs : SessionInv s') (hb : Spends s.2 1 s'.2) (hsegment : s'.2 = s.2 ++ segment)
    (hown : OwnAnswer name arguments segment result) :
    wp (Object.machine mayAsk) (toolResult env result) (ToolCalled s name arguments) s' := by
  have hplain : ∀ d, (result = .dict d ∨ (∀ r, result ≠ .dict r) ∧ d = [("content", result)]) →
      ToolCalled s name arguments (.ok d) s' := by
    intro d hd
    refine ⟨hs, hb, fun d' h _ => ⟨segment, hsegment, result, hown, ?_⟩⟩
    obtain rfl := Except.ok.inj h
    exact hd
  unfold toolResult
  split
  · rename_i d
    split
    · refine Object.wp_self_bind.mpr (Object.wp_modify_bind.mpr ?_)
      refine ToolCalled.failed (hs.modest (f := fun c => { c with lastError := _ }) fun c => ⟨rfl, .inl ⟨rfl, rfl⟩⟩)
        hb ?_
      split
      · simp [toString]
      · assumption
    · exact hplain d (.inl rfl)
  · rename_i hnot
    exact hplain _ (.inr ⟨hnot, rfl⟩)

theorem callTool_spec {name : String} {arguments : Dict} (hs : SessionInv s) :
    wp (Object.machine mayAsk) (callTool env name arguments) (ToolCalled s name arguments) s := by
  refine wp_bind.mpr (wp_try (callAttempt_spec hs) ?_ ?_)
  · intro x s' h
    obtain ⟨result, segment, rfl, hsegment, hown⟩ := h.own x rfl
    exact toolResult_spec h.inv h.spends hsegment hown
  · intro e s' h
    have htold := h.told e rfl
    cases e with
    | other msg => exact ⟨h.inv, h.spends, fun d hd => absurd hd (by simp)⟩
    | configError msg =>
      refine wp_bind.mpr (wp_mono (recordFailure_spec h.inv h.spends htold) ?_)
      rintro (e' | message) s'' ⟨⟨hs'', hb⟩, hmessage⟩
      · exact ⟨hs'', hb, fun d hd => absurd hd (by simp)⟩
      · exact .failed hs'' hb (hmessage message rfl)
    | protocolError msg | timeoutError msg | processCrashed msg =>
      refine wp_bind.mpr (wp_mono (recordFailure_spec h.inv h.spends htold) ?_)
      rintro (e' | message) s'' ⟨⟨hs'', hb⟩, hmessage⟩
      · exact ⟨hs'', hb, fun d hd => absurd hd (by simp)⟩
      · exact .failed hs'' hb (hmessage message rfl)

/-! ## Sessions -/

end StdioMCPClient

/-- What is done with a client.  The reader of stderr takes the same lock as the calls. -/
inductive ClientCall where
  | listTools
  | callTool (name : String) (arguments : Dict)
  | close
  | stderrLine (line : String)

inductive CallResult where
  | tools (l : List MCPToolInfo)
  | dict (d : Dict)
  | none

def ClientCall.prog (env : StdioEnv) : ClientCall → StdioProg CallResult
  | listTools => do
    let tools ← StdioMCPClient.listTools env
    pure (.tools tools)
  | callTool name arguments => do
    let d ← StdioMCPClient.callTool env name arguments
    pure (.dict d)
  | close => do
    StdioMCPClient.close
    pure .none
  | stderrLine line => do
    StdioMCPClient.appendStderr line
    pure .none

/-- A call with its outcome, and what it has asked of the operating system. -/
structure ServedCall where
  call : ClientCall
  outcome : Except StdioExc CallResult
  segment : List OsEvent

abbrev ClientWorld (D : Type) := Object.World StdioMCPClient OsOp OsOp.Answer D

variable {D : Type}

def serveCall (env : StdioEnv) (os : (o : OsOp) → D → o.Answer × D) (w : ClientWorld D) (call : ClientCall) :
    ServedCall × ClientWorld D :=
  let (outcome, w') := (call.prog env).run (Object.exec os) w
  (⟨call, outcome, w'.log.drop w.log.length⟩, w')

def clientSession (env : StdioEnv) (os : (o : OsOp) → D → o.Answer × D) (w : ClientWorld D) :
    List ClientCall → List ServedCall × ClientWorld D
  | [] => ([], w)
  | call :: calls =>
    let (served, w) := serveCall env os w call
    let (rest, w) := clientSession env os w calls
    (served :: rest, w)

namespace StdioMCPClient

variable {os : (o : OsOp) → D → o.Answer × D} {w : ClientWorld D} {call : ClientCall} {calls : List ClientCall}

/-- The writes of `tools/call` that a call may make. -/
def callBudget : ClientCall → Nat
  | .callTool _ _ => 1
  | _ => 0

/-- What is promised of one call. -/
structure Kept (c : ServedCall) : Prop where
  once : (toolCalls c.segment).length ≤ callBudget c.call
  own : ∀ name arguments d, c.call = .callTool name arguments → c.outcome = .ok (.dict d) →
    (Dict.get d "error").truthy = false → FromOwnResponse name arguments c.segment d

theorem prog_spec (hs : SessionInv s) : wp (Object.machine mayAsk) (call.prog env)
    (fun r s' => SessionInv s' ∧ ∃ segment, s'.2 = s.2 ++ segment ∧ Kept ⟨call, r, segment⟩) s := by
  have hcalm : ∀ {call : ClientCall} {r : Except StdioExc CallResult} {s' : SessionState}, callBudget call = 0 →
      (∀ name arguments, call ≠ .callTool name arguments) → SessionInv s' ∧ Spends s.2 0 s'.2 →
      SessionInv s' ∧ ∃ segment, s'.2 = s.2 ++ segment ∧ Kept ⟨call, r, segment⟩ := by
    rintro call r s' hbudget hnot ⟨hs', segment, hlog, hlen⟩
    exact ⟨hs', segment, hlog, by rw [hbudget]; exact hlen, fun name arguments _ h => absurd h (hnot name arguments)⟩
  cases call with
  | listTools =>
    refine wp_bind.mpr (wp_mono (listTools_spec hs) ?_)
    rintro (e | tools) s' h
    · exact hcalm rfl (by simp) h
    · exact hcalm rfl (by simp) h
  | callTool name arguments =>
    refine wp_bind.mpr (wp_mono (callTool_spec hs) ?_)
    rintro (e | d) s' h
    · obtain ⟨segment, hlog, hlen⟩ := h.spends
      exact ⟨h.inv, segment, hlog, hlen, fun _ _ _ _ hd => absurd hd (by simp)⟩
    · obtain ⟨segment, hlog, hlen⟩ := h.spends
      refine ⟨h.inv, segment, hlog, hlen, fun name' arguments' d' hcall hd htruthy => ?_⟩
      obtain ⟨rfl, rfl⟩ := ClientCall.callTool.inj hcall
      obtain rfl := CallResult.dict.inj (Except.ok.inj hd)
      obtain ⟨segment', hlog', hown⟩ := h.own d rfl htruthy
      obtain rfl : segment = segment' := List.append_cancel_left (hlog.symm.trans hlog')
      exact hown
  | close =>
    refine wp_mono (wp_calm (Prog.Uses.bind cleanupProcess_calm fun _ => trivial) hs (.refl : Spends s.2 0 s.2)) ?_
    exact fun r s' h => hcalm rfl (by simp) h
  | stderrLine line =>
    refine wp_mono (wp_calm (Prog.Uses.bind appendStderr_calm fun _ => trivial) hs (.refl : Spends s.2 0 s.2)) ?_
    exact fun r s' h => hcalm rfl (by simp) h

/-- What is promised of the calls that lead from one world to another. -/
structure Served (w : ClientWorld D) (served : List ServedCall) (w' : ClientWorld D) : Prop where
  inv : SessionInv (w'.self, w'.log)
  legal : Object.Legal mayAsk w'.log
  log : w'.log = w.log ++ served.flatMap ServedCall.segment
  kept : ∀ c ∈ served, Kept c

/-- One call, whatever answers. -/
theorem served_serveCall (hs : SessionInv (w.self, w.log)) (hlegal : Object.Legal mayAsk w.log) :
    Served w [(serveCall env os w call).1] (serveCall env os w call).2 := by
  have hspec : wp (Object.machine mayAsk) (call.prog env) (fun r s' => SessionInv s' ∧
      ∃ segment, s'.2 = w.log ++ segment ∧ Kept ⟨call, r, segment⟩) (w.self, w.log) := prog_spec hs
  have hrun := @Object.run_wp _ _ _ _ _ _ _ _ os _ _ hlegal hspec
  unfold serveCall
  generalize (call.prog env).run (Object.exec os) w = run at hrun ⊢
  obtain ⟨outcome, w'⟩ := run
  obtain ⟨⟨hs', segment, hlog, hkept⟩, hlegal'⟩ := hrun
  have hlog : w'.log = w.log ++ segment := hlog
  have hdrop : w'.log.drop w.log.length = segment := by
    rw [hlog, List.drop_left]
  dsimp only
  rw [hdrop]
  refine ⟨hs', hlegal', by simpa using hlog, fun c hc => ?_⟩
  obtain rfl := List.mem_singleton.mp hc
  exact hkept

/-- A session, by induction on its calls. -/
theorem served_clientSession (hs : SessionInv (w.self, w.log)) (hlegal : Object.Legal mayAsk w.log) :
    Served w (clientSession env os w calls).1 (clientSession env os w calls).2 := by
  induction calls generalizing w with
  | nil => exact ⟨hs, hlegal, by simp [clientSession], fun c hc => absurd hc (by simp [clientSession])⟩
  | cons call calls ih =>
    have hone : Served w [(serveCall env os w call).1] (serveCall env os w call).2 := served_serveCall hs hlegal
    have hrest := ih hone.inv hone.legal
    unfold clientSession
    dsimp only
    refine ⟨hrest.inv, hrest.legal, ?_, fun c hc => ?_⟩
    · rw [hrest.log, hone.log]
      simp
    · rcases List.mem_cons.mp hc with rfl | hc
      · exact hone.kept _ (List.mem_singleton_self _)
      · exact hrest.kept c hc

/-- In a legal log the ids of the requests go up. -/
theorem requestIds_increase (hlegal : Object.Legal mayAsk log) : (requestIds log).Pairwise (· < ·) := by
  induction log using List.reverseRecOn with
  | nil => exact .nil
  | append_singleton log e ih =>
    have hpre : Object.Legal mayAsk log := fun pre e' post h => hlegal pre e' (post ++ [e]) (by simp [h])
    rw [requestIds_append, List.pairwise_append]
    refine ⟨ih hpre, ?_, fun i hi j hj => ?_⟩
    · unfold requestIds
      rw [List.filterMap_cons]
      split <;> simp
    · have hmay := hlegal log e [] rfl
      obtain ⟨o, a⟩ := e
      cases o with
      | write p msg =>
        cases msg with
        | request id method params =>
          obtain rfl : j = id := by simpa [requestIds, requestIdOf] using hj
          exact hmay.1 i hi
        | notification method params => simp [requestIds, requestIdOf] at hj
      | poll p | spawn p cmdline | readline p | readStderr p | terminate p | closeStreams p =>
        simp [requestIds, requestIdOf] at hj

/-- **The session protocol.**  For every operating system and server, every configuration of a client and every
sequence of calls: a request for tools is written only after the handshake of its process, a `call_tool`
writes `tools/call` at most once and nothing else does, what it returns without an error comes from a response
with the id of that request, and the ids go up. -/
theorem session_protocol (env : StdioEnv) (os : (o : OsOp) → D → o.Answer × D) (data : D)
    (serverName command args commandAllowlist clientVersion : String) (calls : List ClientCall) :
    let run := clientSession env os ⟨new env serverName command args commandAllowlist clientVersion, [], data⟩ calls
    run.2.log = run.1.flatMap ServedCall.segment ∧
    (∀ pre p id method params answer post,
      run.2.log = pre ++ ⟨.write p (.request id method params), answer⟩ :: post →
      method = "tools/list" ∨ method = "tools/call" → Handshake p pre) ∧
    (∀ c ∈ run.1, (toolCalls c.segment).length ≤ callBudget c.call) ∧
    (∀ c ∈ run.1, ∀ name arguments d, c.call = .callTool name arguments → c.outcome = .ok (.dict d) →
      (Dict.get d "error").truthy = false → FromOwnResponse name arguments c.segment d) ∧
    (requestIds run.2.log).Pairwise (· < ·) := by
  intro run
  have hstart : SessionInv (new env serverName command args commandAllowlist clientVersion, []) :=
    ⟨fun i hi => absurd hi List.not_mem_nil, fun h => absurd h (by simp [new])⟩
  have hrun : Served ⟨new env serverName command args commandAllowlist clientVersion, [], data⟩ run.1 run.2 :=
    served_clientSession hstart .nil
  refine ⟨by simpa using hrun.log, ?_, fun c hc => (hrun.kept c hc).once, fun c hc => (hrun.kept c hc).own,
    requestIds_increase hrun.legal⟩
  intro pre p id method params answer post hlog hmethod
  exact (hrun.legal pre _ post hlog).2 hmethod

end StdioMCPClient

end AgentHarness
