import Mathlib
import AgentHarness.KernelRecords
import AgentHarness.Lib.Keyed

/-!
# ShortTermMemory — what the memory of a session gives back

The sessions are a dict of lists: a session is there once, and only if it has a message.  What is read of a session
is told by the calls alone, by the messages that were added to it behind its last `clear` (`said`).  The ledger that
`KernelRecords` keeps is the roles and the contents of the messages.
-/

namespace AgentHarness

open Lib

namespace ShortTermMemory

/-- `MemoryMessage`, with the timestamp as `isoformat` writes it. -/
structure Message where
  role : String
  content : String
  timestamp : String
  metadata : Dict

/-- `MemoryMessage(role, content, metadata)`. -/
def newMessage (role content : String) (metadata : Option Dict) (now : String) : Message :=
  ⟨role, content, now, metadata.getD []⟩

def Message.toDict (m : Message) : Dict :=
  [("role", .str m.role), ("content", .str m.content), ("timestamp", .str m.timestamp), ("metadata", .dict m.metadata)]

/-- `_sessions`. -/
structure Sessions where
  entries : List (String × List Message)
  nodup : (entries.map Prod.fst).Nodup
  spoken : ∀ entry ∈ entries, entry.2 ≠ []

namespace Sessions

def empty : Sessions := ⟨[], List.nodup_nil, List.forall_mem_nil _⟩

/-- `self._sessions.get(session_id, [])`. -/
def messages (s : Sessions) (sessionId : String) : List Message := (Keyed.lookup sessionId s.entries).getD []

def addMessage (s : Sessions) (sessionId role content : String) (metadata : Option Dict) (now : String) :
    Sessions where
  entries := Keyed.modifyAt [] (· ++ [newMessage role content metadata now]) sessionId s.entries
  nodup := Keyed.nodup_modifyAt s.nodup
  spoken := Keyed.forall_modifyAt (P := fun l => l ≠ []) s.spoken fun l =>
    List.append_ne_nil_of_right_ne_nil l (List.cons_ne_nil _ _)

def clear (s : Sessions) (sessionId : String) : Sessions where
  entries := s.entries.filter fun entry => entry.1 ≠ sessionId
  nodup := s.nodup.sublist (List.filter_sublist.map Prod.fst)
  spoken entry h := s.spoken entry (List.mem_of_mem_filter h)

end Sessions

/-- The limit of a page. -/
def pageSize (limit : Int) : Nat :=
  let limit := if limit ≤ 0 then 10 else limit
  let limit := if 50 < limit then 50 else limit
  limit.toNat

/-- `text[:n]`. -/
def upTo (n : Int) (text : List Char) : List Char :=
  if 0 ≤ n then text.take n.toNat else text.take (text.length - (-n).toNat)

/-- The text of a list of messages. -/
def summaryText (maxChars : Int) : List Message → String
  | [] => ""
  | messages =>
    let full := "\n".intercalate (messages.map fun m => s!"[{m.role}] {m.content}")
    if full.length ≤ maxChars then full else String.ofList (upTo maxChars full.toList) ++ "..."

structure Context where
  sessionId : String
  messageCount : Nat
  summary : String

structure Summary where
  sessionCount : Nat
  messageCount : Nat
  sessions : List (String × Nat)

namespace Sessions

variable (s : Sessions)

def getMessages (sessionId : String) (limit : Int) : List Dict :=
  ((s.messages sessionId).rtake (pageSize limit)).map Message.toDict

def summarize (sessionId : String) (maxChars : Int) : String := summaryText maxChars (s.messages sessionId)

def getContext (sessionId : String) : Context :=
  ⟨sessionId, (s.messages sessionId).length, s.summarize sessionId 500⟩

def summary : Summary where
  sessionCount := s.entries.length
  messageCount := (s.entries.map fun entry => entry.2.length).sum
  sessions := s.entries.map fun entry => (entry.1, entry.2.length)

end Sessions

/-! ## Calls -/

inductive Call where
  | addMessage (sessionId role content : String) (metadata : Option Dict) (now : String)
  | clear (sessionId : String)

def Sessions.after (s : Sessions) : Call → Sessions
  | .addMessage sessionId role content metadata now => s.addMessage sessionId role content metadata now
  | .clear sessionId => s.clear sessionId

/-- What a new memory has after the calls. -/
def memoryAfter (calls : List Call) : Sessions := calls.foldl Sessions.after .empty

def Call.clears (sessionId : String) : Call → Bool
  | .addMessage _ _ _ _ _ => false
  | .clear sessionId' => decide (sessionId' = sessionId)

def Call.message? (sessionId : String) : Call → Option Message
  | .addMessage sessionId' role content metadata now =>
    if sessionId' = sessionId then some (newMessage role content metadata now) else none
  | .clear _ => none

/-- The messages that were added to a session behind its last `clear`. -/
def said (sessionId : String) (calls : List Call) : List Message :=
  (calls.rtakeWhile (!·.clears sessionId)).filterMap (Call.message? sessionId)

section

variable {s : Sessions} {sessionId : String} {calls : List Call}

theorem messages_addMessage {sessionId' role content now : String} {metadata : Option Dict} :
    (s.addMessage sessionId' role content metadata now).messages sessionId =
      s.messages sessionId ++ if sessionId' = sessionId then [newMessage role content metadata now] else [] := by
  have hentries : (s.addMessage sessionId' role content metadata now).entries =
      Keyed.modifyAt [] (· ++ [newMessage role content metadata now]) sessionId' s.entries := rfl
  unfold Sessions.messages
  rw [hentries]
  by_cases h : sessionId' = sessionId
  · subst h
    rw [Keyed.lookup_modifyAt_self, if_pos rfl]
    rfl
  · rw [Keyed.lookup_modifyAt_ne h, if_neg h, List.append_nil]

theorem messages_clear {sessionId' : String} : (s.clear sessionId').messages sessionId =
    if sessionId' = sessionId then [] else s.messages sessionId := by
  unfold Sessions.messages Sessions.clear
  split_ifs with h
  · subst h
    rw [Keyed.lookup_filter_self]
    rfl
  · rw [Keyed.lookup_filter_ne h]

/-- What one call does to the messages of a session. -/
theorem messages_after {call : Call} : (s.after call).messages sessionId =
    if call.clears sessionId then [] else s.messages sessionId ++ (call.message? sessionId).toList := by
  cases call with
  | addMessage sessionId' role content metadata now =>
    unfold Sessions.after Call.clears Call.message?
    rw [messages_addMessage]
    dsimp only
    rw [if_neg Bool.false_ne_true]
    split_ifs <;> rfl
  | clear sessionId' =>
    unfold Sessions.after Call.clears Call.message?
    rw [messages_clear]
    by_cases h : sessionId' = sessionId
    · rw [if_pos h, if_pos (decide_eq_true h)]
    · rw [if_neg h, if_neg (by simpa using h)]
      simp

/-- A session has what was said in it. -/
theorem messages_memoryAfter : (memoryAfter calls).messages sessionId = said sessionId calls := by
  induction calls using List.reverseRecOn with
  | nil => rfl
  | append_singleton calls call ih =>
    have hstep : memoryAfter (calls ++ [call]) = (memoryAfter calls).after call := by
      unfold memoryAfter
      rw [List.foldl_append]
      rfl
    rw [hstep, messages_after, ih]
    unfold said
    rw [List.rtakeWhile_concat]
    cases call.clears sessionId with
    | true => rfl
    | false =>
      rw [if_neg Bool.false_ne_true, if_pos (by rfl), List.filterMap_append, List.filterMap_cons]
      cases call.message? sessionId <;> rfl

/-- The sessions of the summary are those in which something was said. -/
theorem mem_summary {n : Nat} :
    (sessionId, n) ∈ s.summary.sessions ↔ n = (s.messages sessionId).length ∧ 0 < n := by
  unfold Sessions.summary
  rw [List.mem_map]
  constructor
  · rintro ⟨⟨sessionId', l⟩, hmem, heq⟩
    obtain ⟨rfl, rfl⟩ := Prod.mk.inj heq
    have hlookup : s.messages sessionId' = l := by
      unfold Sessions.messages
      rw [Keyed.lookup_of_mem s.nodup hmem]
      rfl
    exact ⟨by rw [hlookup], List.length_pos_of_ne_nil (s.spoken _ hmem)⟩
  · rintro ⟨rfl, hpos⟩
    unfold Sessions.messages at hpos ⊢
    cases hlookup : Keyed.lookup sessionId s.entries with
    | none =>
      rw [hlookup] at hpos
      exact absurd hpos (lt_irrefl 0)
    | some l => exact ⟨(sessionId, l), Keyed.mem_of_lookup hlookup, rfl⟩

/-- **The memory gives back what was said.**  After any calls, what is read of a session is read of the messages
that were added to it behind its last `clear`; the summary lists the sessions with such a message, each once. -/
theorem memory_reads_calls (calls : List Call) :
    (∀ sessionId limit, (memoryAfter calls).getMessages sessionId limit =
        ((said sessionId calls).rtake (pageSize limit)).map Message.toDict) ∧
      (∀ sessionId maxChars, (memoryAfter calls).summarize sessionId maxChars =
        summaryText maxChars (said sessionId calls)) ∧
      (∀ sessionId, (memoryAfter calls).getContext sessionId =
        ⟨sessionId, (said sessionId calls).length, summaryText 500 (said sessionId calls)⟩) ∧
      (∀ sessionId n, (sessionId, n) ∈ (memoryAfter calls).summary.sessions ↔
        n = (said sessionId calls).length ∧ 0 < n) ∧
      ((memoryAfter calls).summary.sessions.map Prod.fst).Nodup ∧
      (memoryAfter calls).summary.sessionCount = (memoryAfter calls).summary.sessions.length ∧
      (memoryAfter calls).summary.messageCount = ((memoryAfter calls).summary.sessions.map Prod.snd).sum := by
  refine ⟨?messages, ?text, ?context, ?listed, ?once, ?count, ?total⟩
  case messages =>
    intro sessionId limit
    unfold Sessions.getMessages
    rw [messages_memoryAfter]
  case text =>
    intro sessionId maxChars
    unfold Sessions.summarize
    rw [messages_memoryAfter]
  case context =>
    intro sessionId
    unfold Sessions.getContext Sessions.summarize
    rw [messages_memoryAfter]
  case listed =>
    intro sessionId n
    rw [mem_summary, messages_memoryAfter]
  case once =>
    unfold Sessions.summary
    rw [List.map_map]
    exact (memoryAfter calls).nodup
  case count =>
    unfold Sessions.summary
    rw [List.length_map]
  case total =>
    unfold Sessions.summary
    rw [List.map_map]
    rfl

/-- What the ledger of a run knows of the memory. -/
def heard (s : Sessions) (sessionId : String) : List MemoryMessage :=
  (s.messages sessionId).map fun m => ⟨m.role, m.content⟩

/-- The ledger follows the memory. -/
theorem heard_addMessage {l : Ledger} {role content now : String} {metadata : Option Dict} (h : l.sessions = heard s) :
    (l.addMessage sessionId ⟨role, content⟩).sessions = heard (s.addMessage sessionId role content metadata now) := by
  unfold Ledger.addMessage
  dsimp only
  rw [h]
  funext sessionId'
  unfold heard
  rw [messages_addMessage, List.map_append]
  by_cases hsame : sessionId = sessionId'
  · subst hsame
    rw [Function.update_self, if_pos rfl]
    rfl
  · rw [Function.update_of_ne (Ne.symm hsame), if_neg hsame]
    simp

end

end ShortTermMemory

end AgentHarness
