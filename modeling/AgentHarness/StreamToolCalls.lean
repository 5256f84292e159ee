import AgentHarness.Lib.Keyed
import AgentHarness.Providers
import AgentHarness.Schemas

/-!
# StreamToolCalls — tool calls that arrive in fragments

A streamed reply gives its tool calls in fragments, each with the index of its call.  The first non-empty id
and name of an index are kept, and its argument texts are put together.  A fragment is a dict of the wire, or an
object of a client library with attributes.
-/

namespace AgentHarness

open Lib

/-- An attribute of `function`; `none` where there is no such attribute. -/
structure FunctionAttrs where
  name : Option PyVal
  arguments : Option PyVal

inductive Fragment where
  | dict (fragment : Dict)
  | object (index id : Option PyVal) (function : Option FunctionAttrs)

/-- An entry of the accumulator, `{"id": ..., "type": "function", "function": {...}}`. -/
structure ToolCallSlot where
  id : String
  name : String
  arguments : String

def ToolCallSlot.empty : ToolCallSlot := ⟨"", "", ""⟩

def ToolCallSlot.toDict (slot : ToolCallSlot) : PyVal :=
  .dict [("id", .str slot.id), ("type", .str "function"),
    ("function", .dict [("name", .str slot.name), ("arguments", .str slot.arguments)])]

/-- The accumulator, by index. -/
abbrev ToolCallAcc := List (Int × ToolCallSlot)

/-- What is read of a fragment. -/
structure FragmentRead where
  index : Int
  callId : String
  name : String
  arguments : String

namespace StreamToolCalls

variable (pyStr : PyVal → String)

/-- `str(v)`, which is the text itself for a text. -/
def textOf (v : PyVal) : String :=
  match v with
  | .str s => s
  | v => pyStr v

/-- `str(v or "")`, and what `if v: ... += str(v)` adds. -/
def textOr (v : PyVal) : String := if v.truthy then textOf pyStr v else ""

/-- `fragment.get("function")`, if it is a dict. -/
def functionDict (fragment : Dict) : Dict :=
  match Dict.get fragment "function" with
  | .dict function => function
  | _ => []

/-- The values of a fragment, before they are converted. -/
def readFragment (fragment : Fragment) : Except Raised FragmentRead :=
  match fragment with
  | .dict fragment => do
    let index ← Provider.intOr0 (Dict.getD fragment "index" (.int 0))
    pure ⟨index, textOr pyStr (Dict.get fragment "id"), textOr pyStr (Dict.get (functionDict fragment) "name"),
      textOr pyStr (Dict.get (functionDict fragment) "arguments")⟩
  | .object index id function => do
    let index ← Provider.intOr0 (index.getD (.int 0))
    let name := (function.bind FunctionAttrs.name).getD (.str "")
    let arguments := (function.bind FunctionAttrs.arguments).getD .null
    pure ⟨index, textOr pyStr (id.getD (.str "")), textOr pyStr name, textOr pyStr arguments⟩

/-- What a fragment changes in its slot. -/
def absorb (slot : ToolCallSlot) (fragment : FragmentRead) : ToolCallSlot where
  id := if fragment.callId ≠ "" ∧ slot.id = "" then fragment.callId else slot.id
  name := if fragment.name ≠ "" ∧ slot.name = "" then fragment.name else slot.name
  arguments := slot.arguments ++ fragment.arguments

/-- `_merge_stream_tool_call_fragment`, with `None` for a delta that has no fragments -/
def mergeStreamToolCallFragment (acc : ToolCallAcc) (fragments : Option (List Fragment)) : Except Raised ToolCallAcc :=
  (fragments.getD []).foldlM (fun acc fragment => do
    let read ← readFragment pyStr fragment
    pure (Keyed.modifyAt .empty (fun slot => absorb slot read) read.index acc)) acc

/-- `_finalize_stream_tool_calls` -/
def finalizeStreamToolCalls (acc : ToolCallAcc) : Option (List PyVal) :=
  if acc = [] then none else some ((Keyed.inOrder acc).map ToolCallSlot.toDict)

/-- The deltas of a stream, one after the other. -/
def mergeDeltas (deltas : List (Option (List Fragment))) : Except Raised ToolCallAcc :=
  deltas.foldlM (mergeStreamToolCallFragment pyStr) []

end StreamToolCalls

/-! ## Calls and their fragments -/

/-- A tool call, as it was sent. -/
structure StreamedCall where
  index : Nat
  id : String
  name : String
  arguments : String

def StreamedCall.slot (call : StreamedCall) : ToolCallSlot := ⟨call.id, call.name, call.arguments⟩

/-- One fragment of a call; `none` is an entry that is absent or null. -/
structure Piece where
  index : Nat
  id : Option String
  name : Option String
  text : Option String

/-- A fragment of the stream carries the piece. -/
def Fragment.Carries : Fragment → Piece → Prop
  | .dict fragment, piece =>
    Dict.getD fragment "index" (.int 0) = .int piece.index ∧ Dict.get fragment "id" = optStr piece.id ∧
    Dict.get (StreamToolCalls.functionDict fragment) "name" = optStr piece.name ∧
    Dict.get (StreamToolCalls.functionDict fragment) "arguments" = optStr piece.text
  | .object index id function, piece =>
    index.getD (.int 0) = .int piece.index ∧ id.getD .null = optStr piece.id ∧
    (function.bind FunctionAttrs.name).getD .null = optStr piece.name ∧
    (function.bind FunctionAttrs.arguments).getD .null = optStr piece.text

/-- The pieces of one call: the first has the id and the name, later ones may repeat them, and the texts are a cut
of the argument text. -/
structure CutsInto (call : StreamedCall) (pieces : List Piece) : Prop where
  first : ∃ piece rest, pieces = piece :: rest ∧ piece.id.getD "" = call.id ∧ piece.name.getD "" = call.name
  ids : ∀ piece ∈ pieces, piece.id.getD "" = "" ∨ piece.id.getD "" = call.id
  names : ∀ piece ∈ pieces, piece.name.getD "" = "" ∨ piece.name.getD "" = call.name
  texts : (pieces.map fun piece => piece.text.getD "").foldl (· ++ ·) "" = call.arguments

namespace StreamToolCalls

variable {pyStr : PyVal → String} {fragment : Fragment} {fragments : List Fragment} {piece : Piece}
  {pieces : List Piece} {call : StreamedCall} {calls : List StreamedCall} {slot : ToolCallSlot} {acc : ToolCallAcc}

/-! ## One fragment -/

def Piece.read (piece : Piece) : FragmentRead :=
  ⟨piece.index, piece.id.getD "", piece.name.getD "", piece.text.getD ""⟩

theorem textOr_optStr (pyStr : PyVal → String) (s : Option String) : textOr pyStr (optStr s) = s.getD "" := by
  cases s with
  | none => rfl
  | some s =>
    show (if (PyVal.str s).truthy then s else "") = s
    by_cases h : s = ""
    · rw [h]
      rfl
    · rw [if_pos (by simpa using h)]

/-- A missing attribute reads like an empty one. -/
theorem textOr_getD {v : Option PyVal} {s : Option String} (h : v.getD .null = optStr s) :
    textOr pyStr (v.getD (.str "")) = s.getD "" := by
  rw [← textOr_optStr pyStr, ← h]
  cases v <;> rfl

theorem readFragment_carries (h : fragment.Carries piece) : readFragment pyStr fragment = .ok (Piece.read piece) := by
  cases fragment with
  | dict fragment =>
    obtain ⟨hindex, hid, hname, htext⟩ := h
    unfold readFragment
    simp only [hindex, hid, hname, htext, textOr_optStr]
    rfl
  | object index id function =>
    obtain ⟨hindex, hid, hname, htext⟩ := h
    unfold readFragment
    simp only [hindex, textOr_getD hid, textOr_getD hname, htext, textOr_optStr]
    rfl

/-! ## A stream of fragments -/

def mergePieces (acc : ToolCallAcc) (pieces : List Piece) : ToolCallAcc :=
  Keyed.collect .empty (fun piece : Piece => (piece.index : Int)) (fun slot piece => absorb slot (Piece.read piece))
    acc pieces

theorem merge_carries (h : List.Forall₂ Fragment.Carries fragments pieces) :
    mergeStreamToolCallFragment pyStr acc (some fragments) = .ok (mergePieces acc pieces) := by
  induction h generalizing acc with
  | nil => rfl
  | @cons fragment piece fragments pieces hfirst _ ih =>
    have hstep : mergeStreamToolCallFragment pyStr acc (some (fragment :: fragments)) =
        (readFragment pyStr fragment >>= fun read => mergeStreamToolCallFragment pyStr
          (Keyed.modifyAt .empty (fun slot => absorb slot read) read.index acc) (some fragments)) := by
      show List.foldlM _ acc (fragment :: fragments) = _
      rw [List.foldlM_cons, bind_assoc]
      rfl
    rw [hstep, readFragment_carries hfirst]
    exact ih

/-- How the fragments are grouped into deltas does not matter. -/
theorem mergeDeltas_eq (deltas : List (Option (List Fragment))) :
    deltas.foldlM (mergeStreamToolCallFragment pyStr) acc =
      mergeStreamToolCallFragment pyStr acc (some (deltas.flatMap fun delta => delta.getD [])) := by
  induction deltas generalizing acc with
  | nil => rfl
  | cons delta deltas ih =>
    rw [List.foldlM_cons, List.flatMap_cons]
    show _ = List.foldlM _ acc (delta.getD [] ++ _)
    rw [List.foldlM_append]
    exact bind_congr fun acc' => ih

/-! ## One call -/

theorem absorb_again (hid : slot.id = call.id) (hname : slot.name = call.name)
    (hids : piece.id.getD "" = "" ∨ piece.id.getD "" = call.id)
    (hnames : piece.name.getD "" = "" ∨ piece.name.getD "" = call.name) :
    absorb slot (Piece.read piece) = ⟨call.id, call.name, slot.arguments ++ piece.text.getD ""⟩ := by
  unfold absorb Piece.read
  congr 1
  · show (if piece.id.getD "" ≠ "" ∧ slot.id = "" then piece.id.getD "" else slot.id) = call.id
    rw [hid]
    rcases hids with h | h <;> rw [h]
    · simp
    · split <;> rfl
  · show (if piece.name.getD "" ≠ "" ∧ slot.name = "" then piece.name.getD "" else slot.name) = call.name
    rw [hname]
    rcases hnames with h | h <;> rw [h]
    · simp
    · split <;> rfl

/-- The pieces after the first only add their texts. -/
theorem absorb_rest (hid : slot.id = call.id) (hname : slot.name = call.name)
    (hids : ∀ piece ∈ pieces, piece.id.getD "" = "" ∨ piece.id.getD "" = call.id)
    (hnames : ∀ piece ∈ pieces, piece.name.getD "" = "" ∨ piece.name.getD "" = call.name) :
    pieces.foldl (fun slot piece => absorb slot (Piece.read piece)) slot =
      ⟨call.id, call.name, (pieces.map fun piece => piece.text.getD "").foldl (· ++ ·) slot.arguments⟩ := by
  induction pieces generalizing slot with
  | nil =>
    rw [← hid, ← hname]
    rfl
  | cons piece pieces ih =>
    rw [List.foldl_cons,
      absorb_again hid hname (hids piece List.mem_cons_self) (hnames piece List.mem_cons_self),
      ih rfl rfl (fun p hp => hids p (List.mem_cons_of_mem _ hp)) fun p hp => hnames p (List.mem_cons_of_mem _ hp)]
    rfl

/-- **One call.**  Its pieces make up its slot. -/
theorem absorb_cut (h : CutsInto call pieces) :
    pieces.foldl (fun slot piece => absorb slot (Piece.read piece)) .empty = call.slot := by
  obtain ⟨⟨piece, rest, rfl, hid, hname⟩, hids, hnames, htexts⟩ := h
  have hfirst : absorb .empty (Piece.read piece) = ⟨call.id, call.name, "" ++ piece.text.getD ""⟩ := by
    unfold absorb Piece.read ToolCallSlot.empty
    simp only [hid, hname]
    congr 1
    · by_cases h : call.id = "" <;> simp [h]
    · by_cases h : call.name = "" <;> simp [h]
  rw [List.foldl_cons, hfirst,
    absorb_rest rfl rfl (fun p hp => hids p (List.mem_cons_of_mem _ hp))
      fun p hp => hnames p (List.mem_cons_of_mem _ hp)]
  unfold StreamedCall.slot
  rw [← htexts]
  rfl

/-- **Reassembly.**  Calls with distinct indexes are cut into fragments, the fragments are mixed with each call's own
in their order, and the mix is grouped into deltas: merging the deltas and finalizing gives the calls by index.
Without a call there is no list. -/
theorem stream_reassembled (pyStr : PyVal → String) (calls : List StreamedCall)
    (deltas : List (Option (List Fragment))) (pieces : List Piece)
    (hdistinct : (calls.map StreamedCall.index).Nodup)
    (hcarries : List.Forall₂ Fragment.Carries (deltas.flatMap fun delta => delta.getD []) pieces)
    (hknown : ∀ piece ∈ pieces, piece.index ∈ calls.map StreamedCall.index)
    (hcut : ∀ call ∈ calls, CutsInto call (pieces.filter fun piece => piece.index = call.index)) :
    ∃ (acc : ToolCallAcc) (ordered : List StreamedCall), mergeDeltas pyStr deltas = .ok acc ∧ ordered.Perm calls ∧
      (ordered.map StreamedCall.index).Pairwise (· < ·) ∧
      finalizeStreamToolCalls acc =
        if calls = [] then none else some (ordered.map fun call => call.slot.toDict) := by
  have hmerged : mergeDeltas pyStr deltas = .ok (mergePieces [] pieces) := by
    unfold mergeDeltas
    rw [mergeDeltas_eq]
    exact merge_carries hcarries
  obtain ⟨ordered, hperm, hsorted⟩ := Keyed.exists_ordered hdistinct
  refine ⟨_, ordered, hmerged, hperm, hsorted, ?_⟩
  have hindexes : ∀ index, index ∈ (mergePieces [] pieces).map Prod.fst ↔
      index ∈ ordered.map fun call => (call.index : Int) := by
    intro index
    unfold mergePieces
    rw [Keyed.mem_keys_collect]
    constructor
    · rintro (h | ⟨piece, hpiece, rfl⟩)
      · exact absurd h List.not_mem_nil
      · obtain ⟨call, hcall, hindex⟩ := List.mem_map.mp (hknown piece hpiece)
        exact List.mem_map.mpr ⟨call, hperm.mem_iff.mpr hcall, by rw [hindex]⟩
    · intro h
      obtain ⟨call, hcall, rfl⟩ := List.mem_map.mp h
      obtain ⟨piece, rest, hpieces, -⟩ := (hcut call (hperm.mem_iff.mp hcall)).first
      have hmem : piece ∈ pieces.filter fun piece => piece.index = call.index := by
        rw [hpieces]
        exact List.mem_cons_self
      obtain ⟨hpiece, hindex⟩ := List.mem_filter.mp hmem
      exact .inr ⟨piece, hpiece, by rw [of_decide_eq_true hindex]⟩
  have hslots : ∀ call ∈ ordered, Keyed.lookup (call.index : Int) (mergePieces [] pieces) = some call.slot := by
    intro call hcall
    have hsome : ∃ piece ∈ pieces, (piece.index : Int) = call.index := by
      have := (hindexes call.index).mpr (List.mem_map_of_mem hcall)
      exact (Keyed.mem_keys_collect.mp this).resolve_left List.not_mem_nil
    unfold mergePieces
    rw [Keyed.lookup_collect hsome]
    simp only [Nat.cast_inj]
    exact congrArg some (absorb_cut (hcut call (hperm.mem_iff.mp hcall)))
  have hordered : Keyed.inOrder (mergePieces [] pieces) = ordered.map StreamedCall.slot := by
    refine Keyed.inOrder_eq (Keyed.nodup_collect List.nodup_nil) ?_ hindexes hslots
    exact List.pairwise_map.mpr ((List.pairwise_map.mp hsorted).imp fun h => Int.ofNat_lt.mpr h)
  unfold finalizeStreamToolCalls
  by_cases hcalls : calls = []
  · subst hcalls
    have hnone : pieces = [] := List.eq_nil_iff_forall_not_mem.mpr fun piece hpiece =>
      absurd (hknown piece hpiece) List.not_mem_nil
    rw [if_pos rfl, hnone]
    rfl
  · have hsome : mergePieces [] pieces ≠ [] := by
      intro hempty
      obtain ⟨call, rest, rfl⟩ := List.exists_cons_of_ne_nil hcalls
      have hcall := hslots call (hperm.mem_iff.mpr List.mem_cons_self)
      rw [hempty] at hcall
      cases hcall
    rw [if_neg hcalls, if_neg hsome, hordered, List.map_map]
    rfl

/-- Two calls, the second index first: ids once, the name of one repeated, its text in two pieces. -/
def mixedPieces : List Piece :=
  [⟨3, some "b", some "search", none⟩, ⟨0, some "a", some "lookup", some "1"⟩, ⟨3, none, none, some ""⟩,
    ⟨0, none, some "lookup", some "2"⟩]

def mixedCalls : List StreamedCall := [⟨3, "b", "search", ""⟩, ⟨0, "a", "lookup", "12"⟩]

/-- The fragments of the pieces, the first of them an object. -/
def mixedDeltas : List (Option (List Fragment)) :=
  [some [.object (some (.int 3)) (some (.str "b")) (some ⟨some (.str "search"), none⟩)], none,
    some [.dict [("id", .str "a"), ("function", .dict [("name", .str "lookup"), ("arguments", .str "1")])],
      .dict [("index", .int 3), ("function", .dict [("arguments", .str "")])]],
    some [.dict [("index", .int 0), ("function", .dict [("name", .str "lookup"), ("arguments", .str "2")])]]]

theorem stream_reassembled_mixed : ∃ (acc : ToolCallAcc) (ordered : List StreamedCall),
    mergeDeltas (fun _ => "") mixedDeltas = .ok acc ∧ ordered.Perm mixedCalls ∧
    (ordered.map StreamedCall.index).Pairwise (· < ·) ∧
    finalizeStreamToolCalls acc =
      if mixedCalls = [] then none else some (ordered.map fun call => call.slot.toDict) := by
  refine stream_reassembled (fun _ => "") mixedCalls mixedDeltas mixedPieces (by decide) ?_ (by decide) ?_
  · exact .cons ⟨rfl, rfl, rfl, rfl⟩ (.cons ⟨rfl, rfl, rfl, rfl⟩ (.cons ⟨rfl, rfl, rfl, rfl⟩
      (.cons ⟨rfl, rfl, rfl, rfl⟩ .nil)))
  · intro call hcall
    rcases List.mem_cons.mp hcall with rfl | hcall
    · exact ⟨⟨_, _, rfl, rfl, rfl⟩, by decide, by decide, rfl⟩
    · obtain rfl := List.mem_singleton.mp hcall
      exact ⟨⟨_, _, rfl, rfl, rfl⟩, by decide, by decide, rfl⟩

end StreamToolCalls

end AgentHarness
