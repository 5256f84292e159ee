import Mathlib.Data.Rat.Defs

/-!
# PyVal — the values that move through payloads, results and tool arguments

Payload columns hold JSON text; results and arguments are Python dicts, lists and scalars.
`PyVal.object` stands for a value that is neither (a bound method, a `datetime`): attribute access
can produce one, and `json.dumps(..., default=str)` turns it into a string (`PyVal.jsonable`).

A dict is an association list in insertion order; `Dict.update` keeps the position of a key that
exists, as `dict.update` does.
-/

namespace AgentHarness

inductive PyVal where
  | null
  | bool (b : Bool)
  | int (i : Int)
  | float (q : Rat)
  | str (s : String)
  | list (l : List PyVal)
  | dict (d : List (String × PyVal))
  | object (name : String)

/-- Keyword arguments, payloads, results: string keys in insertion order. -/
abbrev Dict := List (String × PyVal)

/-- The exceptions the modelled code raises or lets through. -/
inductive PyExc where
  | attributeError (msg : String)
  | typeError (msg : String)
  | valueError (msg : String)
  | validationError (msg : String)
  | keyError (key : String)
  | assertionError
  /-- an operation of a store that raised -/
  | storeError (msg : String)
  /-- `VariableResolutionError` of the pipeline -/
  | variableResolution (path : String)
  /-- `ResumeVariableResolutionError` -/
  | resumeVariableResolution (path : String)
  deriving DecidableEq, Repr

/-- `str(exc)`. -/
def PyExc.text : PyExc → String
  | .attributeError m | .typeError m | .valueError m | .validationError m | .storeError m => m
  | .keyError k => "'" ++ k ++ "'"
  | .assertionError => ""
  | .variableResolution p => "变量解析失败: $" ++ p
  | .resumeVariableResolution p => "resume 变量解析失败: $" ++ p

/-- `exc.path` of a resolution error. -/
def PyExc.path : PyExc → String
  | .variableResolution p | .resumeVariableResolution p => p
  | _ => ""

namespace Dict

/-- `k in d`, with the value found. -/
def get? (d : Dict) (k : String) : Option PyVal := List.lookup k d

/-- `d.get(k, v)`. -/
def getD (d : Dict) (k : String) (v : PyVal) : PyVal := (get? d k).getD v

/-- `d.get(k)`. -/
def get (d : Dict) (k : String) : PyVal := getD d k .null

/-- `d[k]`. -/
def index (d : Dict) (k : String) : Except PyExc PyVal :=
  match get? d k with
  | some v => .ok v
  | none => .error (.keyError k)

/-- `d[k] = v`. -/
def set : Dict → String → PyVal → Dict
  | [], k, v => [(k, v)]
  | (k', v') :: d, k, v => if k' = k then (k', v) :: d else (k', v') :: set d k v

/-- `d.update(e)`. -/
def update (d e : Dict) : Dict := e.foldl (fun d kv => set d kv.1 kv.2) d

section

variable {d e : Dict} {k k' : String} {v : PyVal}

@[simp] theorem get?_nil : get? [] k = none := rfl

theorem get?_cons : get? ((k', v) :: d) k = if k = k' then some v else get? d k := by
  unfold get?
  rw [List.lookup_cons]
  by_cases h : k = k'
  · rw [if_pos h, beq_iff_eq.mpr h]
  · rw [if_neg h, beq_false_of_ne h]

@[simp] theorem get?_cons_self : get? ((k, v) :: d) k = some v := by simp [get?_cons]

@[simp] theorem get?_cons_ne (h : k ≠ k') : get? ((k', v) :: d) k = get? d k := by
  simp [get?_cons, h]

@[simp] theorem get?_set_self : get? (set d k v) k = some v := by
  induction d with
  | nil => simp [set]
  | cons kv d ih =>
    obtain ⟨k₀, v₀⟩ := kv
    unfold set
    split_ifs with h
    · subst h
      simp
    · rw [get?_cons_ne (Ne.symm h), ih]

theorem get?_set_ne (h : k ≠ k') : get? (set d k' v) k = get? d k := by
  induction d with
  | nil => simp [set, h]
  | cons kv d ih =>
    obtain ⟨k₀, v₀⟩ := kv
    unfold set
    split_ifs with h₀
    · subst h₀
      simp [h]
    · by_cases hk : k = k₀
      · subst hk
        simp
      · simp [hk, ih]

@[simp] theorem update_nil : update d [] = d := rfl

@[simp] theorem update_cons : update d ((k, v) :: e) = update (set d k v) e := rfl

/-- An update by a dict that does not mention `k` keeps the entry at `k`. -/
theorem get?_update_of_not_mem (h : ∀ kv ∈ e, kv.1 ≠ k) : get? (update d e) k = get? d k := by
  induction e generalizing d with
  | nil => rfl
  | cons kv e ih =>
    rw [update_cons, ih fun x hx => h x (List.mem_cons_of_mem _ hx)]
    exact get?_set_ne (Ne.symm (h kv List.mem_cons_self))

end

end Dict

namespace PyVal

/-- `bool(v)`. -/
def truthy : PyVal → Bool
  | null => false
  | bool b => b
  | int i => i ≠ 0
  | float q => q ≠ 0
  | str s => s ≠ ""
  | list l => !l.isEmpty
  | dict d => !d.isEmpty
  | object _ => true

/-- Python's `a or b`. -/
def or (a b : PyVal) : PyVal := if a.truthy then a else b

/-- `v.get(k, dflt)`: only dicts have the method. -/
def getD (v : PyVal) (k : String) (dflt : PyVal) : Except PyExc PyVal :=
  match v with
  | dict d => .ok (Dict.getD d k dflt)
  | _ => .error (.attributeError "object has no attribute 'get'")

/-- `v.get(k)`. -/
def get (v : PyVal) (k : String) : Except PyExc PyVal := v.getD k .null

/-- The elements a `for` loop, `list()` or `set()` sees. -/
def iter : PyVal → Except PyExc (List PyVal)
  | list l => .ok l
  | dict d => .ok (d.map fun kv => .str kv.1)
  | str s => .ok (s.toList.map fun c => .str (String.ofList [c]))
  | _ => .error (.typeError "object is not iterable")

/-- Only hashable values may be dict keys or set members. -/
def hashable : PyVal → Bool
  | list _ => false
  | dict _ => false
  | _ => true

/-- `set(v)`, kept as the list of its elements. -/
def toSet (v : PyVal) : Except PyExc (List PyVal) :=
  match v.iter with
  | .ok l => if l.all hashable then .ok l else .error (.typeError "unhashable type")
  | .error e => .error e

/-- The number a `bool`, `int` or `float` compares as. -/
def number? : PyVal → Option Rat
  | bool b => some (if b then 1 else 0)
  | int i => some i
  | float q => some q
  | _ => Option.none

mutual
/-- Python's `==` on JSON values: numbers by value, dicts without regard to order. -/
def pyEq : PyVal → PyVal → Bool
  | null, b => match b with
    | null => true
    | _ => false
  | bool x, b => b.number? == some (if x then 1 else 0)
  | int i, b => b.number? == some (i : Rat)
  | float q, b => b.number? == some q
  | str s, b => match b with
    | str s' => s == s'
    | _ => false
  | list l, b => match b with
    | list l' => pyEqList l l'
    | _ => false
  | dict d, b => match b with
    | dict d' => d.length == d'.length && pyEqDict d d'
    | _ => false
  | object n, b => match b with
    | object n' => n == n'
    | _ => false

def pyEqList : List PyVal → List PyVal → Bool
  | [], l' => l'.isEmpty
  | a :: l, l' => match l' with
    | [] => false
    | b :: l' => pyEq a b && pyEqList l l'

/-- Every entry of the first dict has an equal entry in the second. -/
def pyEqDict : List (String × PyVal) → List (String × PyVal) → Bool
  | [], _ => true
  | (k, v) :: d, d' => (match List.lookup k d' with
    | some v' => pyEq v v'
    | Option.none => false) && pyEqDict d d'
end

/-- `v in l` for a list or a set. -/
def memOf (v : PyVal) (l : List PyVal) : Bool := l.any fun x => v.pyEq x

mutual
/-- The value read back from `json.dumps(v, default=str)`. -/
def jsonable : PyVal → PyVal
  | list l => list (jsonableList l)
  | dict d => dict (jsonableDict d)
  | object n => str n
  | null => null
  | bool b => bool b
  | int i => int i
  | float q => float q
  | str s => str s

def jsonableList : List PyVal → List PyVal
  | [] => []
  | v :: l => jsonable v :: jsonableList l

def jsonableDict : List (String × PyVal) → List (String × PyVal)
  | [] => []
  | (k, v) :: d => (k, jsonable v) :: jsonableDict d
end

@[simp] theorem jsonableList_eq_map (l : List PyVal) : jsonableList l = l.map jsonable := by
  induction l with
  | nil => rfl
  | cons v l ih => simp [jsonableList, ih]

theorem jsonableDict_eq_map (d : Dict) :
    jsonableDict d = d.map fun kv => (kv.1, kv.2.jsonable) := by
  induction d with
  | nil => rfl
  | cons kv d ih => simp [jsonableDict, ih]

@[simp] theorem truthy_str (s : String) : (str s).truthy = (s ≠ "") := by simp [truthy]

@[simp] theorem truthy_bool (b : Bool) : (bool b).truthy = b := rfl

@[simp] theorem truthy_null : null.truthy = false := rfl

@[simp] theorem pyEq_str (s s' : String) : (str s).pyEq (str s') = (s == s') := by simp [pyEq]

@[simp] theorem pyEq_str_iff (s : String) (v : PyVal) : (str s).pyEq v = true ↔ v = str s := by
  cases v with
  | str s' => simp only [pyEq, beq_iff_eq, str.injEq, @eq_comm _ s]
  | _ => simp [pyEq]

/-- Being in a set of strings is list membership. -/
@[simp] theorem memOf_map_str (s : String) (l : List String) :
    (str s).memOf (l.map str) = decide (s ∈ l) := by
  induction l with
  | nil => simp [memOf]
  | cons a l ih =>
    simp only [memOf] at ih
    simp [memOf, ih, Bool.beq_eq_decide_eq]

end PyVal

/-- The dict read back from `json.dumps(d, default=str)`. -/
def Dict.jsonable (d : Dict) : Dict := PyVal.jsonableDict d

theorem Dict.get?_jsonable (d : Dict) (k : String) :
    (Dict.jsonable d).get? k = (d.get? k).map PyVal.jsonable := by
  induction d with
  | nil => rfl
  | cons kv d ih =>
    obtain ⟨k', v⟩ := kv
    have hc : Dict.jsonable ((k', v) :: d) = (k', v.jsonable) :: Dict.jsonable d := rfl
    rw [hc]
    by_cases h : k = k'
    · subst h
      simp
    · simp [h, ih]

end AgentHarness
