import AgentHarness.Lib.Prog

/-!
# Lib.StateGraph — programs that are graphs of nodes

A node reads the state and gives the next one; the edge out of it may depend on the state it has left.  A run
follows the edges from the entry to the end.  The engine gives up after a number of nodes.  Where every edge
leads down in some rank, the rank bounds the run, and the limit is never met (`runFrom_limit`).
-/

namespace AgentHarness.Lib

structure StateGraph (N S : Type) (O : Type) (A : O → Type) (E : Type) where
  entry : N
  node : N → S → Prog O A E S
  /-- the node that follows, or the end -/
  next : N → S → Option N

namespace StateGraph

variable {N S O : Type} {A : O → Type} {E : Type} (g : StateGraph N S O A E) (limit : E)

def runFrom : Nat → N → S → Prog O A E S
  | 0, _, _ => .raise limit
  | fuel + 1, x, s => do
    let s' ← g.node x s
    match g.next x s' with
    | none => pure s'
    | some y => runFrom fuel y s'

def invoke (recursionLimit : Nat) (s : S) : Prog O A E S := g.runFrom limit recursionLimit g.entry s

variable {g limit}

/-- With a rank that falls along every edge, more fuel than the rank makes no difference. -/
theorem runFrom_limit {rank : N → Nat} (hrank : ∀ x s y, g.next x s = some y → rank y < rank x) {fuel fuel' : Nat}
    {x : N} {s : S} (hfuel : rank x < fuel) (hfuel' : rank x < fuel') :
    g.runFrom limit fuel x s = g.runFrom limit fuel' x s := by
  induction fuel generalizing fuel' x s with
  | zero => exact absurd hfuel (by omega)
  | succ fuel ih =>
    obtain ⟨fuel', rfl⟩ : ∃ n, fuel' = n + 1 := ⟨fuel' - 1, by omega⟩
    refine congrArg (g.node x s >>= ·) (funext fun s' => ?_)
    rcases hnext : g.next x s' with _ | y
    · rfl
    · have hlt : rank y < rank x := hrank x s' y hnext
      exact ih (by omega) (by omega)

end StateGraph

end AgentHarness.Lib
