import AgentHarness.Ops

/-!
# Variables — `$name.path` placeholders in tool arguments

The pipeline and the resume service both replace a string argument `$name.part...` by a value found
in the saved results.  `resolveWith` is the walk over the argument structure they share; the two
lookups differ.  `MultiToolPipeline.resolveVariable` reads live records and gives up only where a
part is missing.  `ApprovalResumeService.resolveVariable` reads the stored call dicts (and the
records of the steps it ran itself), and its caller takes a `None` for a failure.
-/

namespace AgentHarness

/-- A finished step as the resume service keeps it: the stored dict, or a record of its own. -/
inductive Saved where
  | entry (d : Dict)
  | record (r : ToolCallRecord)

/-- `path.split(".")`. -/
def splitDots : (acc : List Char) → List Char → List String
  | acc, [] => [String.ofList acc.reverse]
  | acc, c :: cs =>
    if c = '.' then String.ofList acc.reverse :: splitDots [] cs else splitDots (c :: acc) cs

/-- The path of a placeholder: the text after a leading `$`. -/
def placeholder? (s : String) : Option String :=
  match s.toList with
  | '$' :: cs => some (String.ofList cs)
  | _ => none

section Resolve

variable (look : String → Except PyExc PyVal)

mutual
/-- `_resolve_value`, with the lookup of a placeholder path as a parameter. -/
def resolveWith : PyVal → Except PyExc PyVal
  | .str s =>
    match placeholder? s with
    | some path => look path
    | none => .ok (.str s)
  | .dict d => do return .dict (← resolveDict d)
  | .list l => do return .list (← resolveList l)
  | .null => .ok .null
  | .bool b => .ok (.bool b)
  | .int i => .ok (.int i)
  | .float q => .ok (.float q)
  | .object n => .ok (.object n)

def resolveList : List PyVal → Except PyExc (List PyVal)
  | [] => .ok []
  | v :: l => do return (← resolveWith v) :: (← resolveList l)

def resolveDict : List (String × PyVal) → Except PyExc (List (String × PyVal))
  | [] => .ok []
  | (k, v) :: d => do return (k, ← resolveWith v) :: (← resolveDict d)
end

end Resolve

variable (env : Env)

/-- One part of a path below a value: a key of a dict, an attribute of anything else. -/
def valuePart (v : PyVal) (part : String) : Option PyVal :=
  match v with
  | .dict d => Dict.get? d part
  | v => env.attr v part

/-- One part of a path below a live record: a field, or another attribute. -/
def recordPart (r : ToolCallRecord) (part : String) : Option PyVal :=
  match r.field? part with
  | some v => some v
  | none => env.recordAttr r part

def walk (v : PyVal) : List String → Option PyVal
  | [] => some v
  | p :: ps => (valuePart env v p).bind fun v => walk v ps

def savedPart (s : Saved) (part : String) : Option PyVal :=
  match s with
  | .entry d => d.get? part
  | .record r => recordPart env r part

namespace MultiToolPipeline

/-- `none` is `_UNRESOLVED`. -/
def resolveVariable (path : String) (saved : List (String × ToolCallRecord)) : Option PyVal :=
  match splitDots [] path.toList with
  | varName :: p :: ps =>
    (saved.lookup varName).bind fun r => (recordPart env r p).bind fun v => walk env v ps
  | _ => none

def look (saved : List (String × ToolCallRecord)) (path : String) : Except PyExc PyVal :=
  match resolveVariable env path saved with
  | none => .error (.variableResolution path)
  | some v => .ok v

def resolveValue (v : PyVal) (saved : List (String × ToolCallRecord)) : Except PyExc PyVal :=
  resolveWith (look env saved) v

def resolveArguments (arguments : PyVal) (saved : List (String × ToolCallRecord)) :
    Except PyExc PyVal :=
  resolveValue env arguments saved

end MultiToolPipeline

namespace ApprovalResumeService

/-- `none` where the source returns `None` because nothing is found. -/
def resolveVariable (path : String) (saved : List (String × Saved)) : Option PyVal :=
  match splitDots [] path.toList with
  | varName :: p :: ps =>
    (saved.lookup varName).bind fun s => (savedPart env s p).bind fun v => walk env v ps
  | _ => none

/-- A `None` that was found is a failure as well. -/
def look (saved : List (String × Saved)) (path : String) : Except PyExc PyVal :=
  match resolveVariable env path saved with
  | none => .error (.resumeVariableResolution path)
  | some .null => .error (.resumeVariableResolution path)
  | some v => .ok v

def resolveValue (v : PyVal) (saved : List (String × Saved)) : Except PyExc PyVal :=
  resolveWith (look env saved) v

def resolveArguments (arguments : PyVal) (saved : List (String × Saved)) : Except PyExc PyVal :=
  resolveValue env arguments saved

end ApprovalResumeService

/-! ## Resolution keeps the shape of the arguments and raises only lookup errors -/

section Shape

variable {look : String → Except PyExc PyVal}

/-- The arguments of a call are a dict before and after resolution. -/
theorem resolveWith_dict {d : Dict} {v : PyVal} (h : resolveWith look (.dict d) = .ok v) :
    ∃ d', v = .dict d' := by
  unfold resolveWith at h
  cases hd : resolveDict look d with
  | error e => simp [hd, bind, Except.bind] at h
  | ok d' =>
    simp only [hd, bind, Except.bind, pure, Except.pure, Except.ok.injEq] at h
    exact ⟨d', h.symm⟩

mutual
theorem resolveWith_error {E : PyExc → Prop} (hE : ∀ p e, look p = .error e → E e) :
    ∀ (v : PyVal) (e : PyExc), resolveWith look v = .error e → E e
  | .str s, e, h => by
    unfold resolveWith at h
    split at h
    · exact hE _ _ h
    · cases h
  | .dict d, e, h => by
    unfold resolveWith at h
    cases hd : resolveDict look d with
    | error e' =>
      simp only [hd, bind, Except.bind, Except.error.injEq] at h
      exact h ▸ resolveDict_error hE d e' hd
    | ok d' => simp [hd, bind, Except.bind, pure, Except.pure] at h
  | .list l, e, h => by
    unfold resolveWith at h
    cases hl : resolveList look l with
    | error e' =>
      simp only [hl, bind, Except.bind, Except.error.injEq] at h
      exact h ▸ resolveList_error hE l e' hl
    | ok l' => simp [hl, bind, Except.bind, pure, Except.pure] at h
  | .null, _, h | .bool _, _, h | .int _, _, h | .float _, _, h | .object _, _, h => by
    simp [resolveWith] at h

theorem resolveList_error {E : PyExc → Prop} (hE : ∀ p e, look p = .error e → E e) :
    ∀ (l : List PyVal) (e : PyExc), resolveList look l = .error e → E e
  | [], _, h => by simp [resolveList] at h
  | v :: l, e, h => by
    unfold resolveList at h
    cases hv : resolveWith look v with
    | error e' =>
      simp only [hv, bind, Except.bind, Except.error.injEq] at h
      exact h ▸ resolveWith_error hE v e' hv
    | ok v' =>
      cases hl : resolveList look l with
      | error e' =>
        simp only [hv, hl, bind, Except.bind, Except.error.injEq] at h
        exact h ▸ resolveList_error hE l e' hl
      | ok l' => simp [hv, hl, bind, Except.bind, pure, Except.pure] at h

theorem resolveDict_error {E : PyExc → Prop} (hE : ∀ p e, look p = .error e → E e) :
    ∀ (d : List (String × PyVal)) (e : PyExc), resolveDict look d = .error e → E e
  | [], _, h => by simp [resolveDict] at h
  | (k, v) :: d, e, h => by
    unfold resolveDict at h
    cases hv : resolveWith look v with
    | error e' =>
      simp only [hv, bind, Except.bind, Except.error.injEq] at h
      exact h ▸ resolveWith_error hE v e' hv
    | ok v' =>
      cases hd : resolveDict look d with
      | error e' =>
        simp only [hv, hd, bind, Except.bind, Except.error.injEq] at h
        exact h ▸ resolveDict_error hE d e' hd
      | ok d' => simp [hv, hd, bind, Except.bind, pure, Except.pure] at h
end

end Shape

/-- The pipeline's resolution raises nothing but `VariableResolutionError`. -/
theorem MultiToolPipeline.resolveArguments_error {v : PyVal}
    {saved : List (String × ToolCallRecord)} {e : PyExc}
    (h : MultiToolPipeline.resolveArguments env v saved = .error e) :
    ∃ p, e = .variableResolution p := by
  refine @resolveWith_error _ (fun e => ∃ p, e = .variableResolution p) (fun p e hp => ?_) v e h
  unfold MultiToolPipeline.look at hp
  split at hp
  · exact ⟨p, by simpa using hp.symm⟩
  · cases hp

/-- The resume's resolution raises nothing but `ResumeVariableResolutionError`. -/
theorem ApprovalResumeService.resolveArguments_error {v : PyVal} {saved : List (String × Saved)}
    {e : PyExc} (h : ApprovalResumeService.resolveArguments env v saved = .error e) :
    ∃ p, e = .resumeVariableResolution p := by
  refine @resolveWith_error _ (fun e => ∃ p, e = .resumeVariableResolution p)
    (fun p e hp => ?_) v e h
  unfold ApprovalResumeService.look at hp
  split at hp
  · exact ⟨p, by simpa using hp.symm⟩
  · exact ⟨p, by simpa using hp.symm⟩
  · cases hp

end AgentHarness
