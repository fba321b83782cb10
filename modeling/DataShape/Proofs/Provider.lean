import DataShape.Function
import DataShape.Proofs.Reading

/-! # Functions of providers

The engine calls functions of providers, and these use the engine again. Statements about whole runs
are made for all providers: how a value is called is a parameter, and the dispatch of the engine is
built from it as from `callValue`.

* `Provider` — how values are called, given the ways to leave the engine.
* `Provider.dispatch` — the dispatch built from a provider, down to a depth of nested calls;
  `dispatch_callValue` says that `dispatchWithin` is one of them.
* `Provider.dispatch_within` — the dispatch is within a relation if the provider's functions follow
  it whenever the dispatch that they are given does. -/

namespace DataShape

/-- How values are called, given the ways to leave the engine. -/
abbrev Provider := Dispatch → Value → List Value → List (String × Value) → Action Value

namespace Provider

/-- Calls, member reading, iteration and display, nested down to a depth, where values are called in
the way of a provider. -/
def dispatch (call : Provider) : Nat → Dispatch
  | 0 => ⟨fun _ _ _ => throw .tooDeep, fun _ _ => throw .tooDeep, fun _ => throw .tooDeep,
      fun _ => throw .tooDeep⟩
  | depth + 1 =>
      let d := call.dispatch depth
      ⟨call d, readMember d, iterate d, shown d⟩

/-- The engine calls values in the way of its own functions. -/
theorem dispatch_callValue (depth : Nat) : dispatch callValue depth = dispatchWithin depth := by
  induction depth with
  | zero => rfl
  | succ depth ih =>
    rw [dispatch, dispatchWithin, ih]

/-- Functions of a provider follow a relation if the dispatch that they are given does. -/
def Within (call : Provider) (R : World → World → Prop) : Prop :=
  ∀ d : Dispatch, d.Within R → ∀ f arguments named, Along R (call d f arguments named)

variable {call : Provider} {R : World → World → Prop}

/-- By induction on the depth: a dispatch one level deeper reads, walks and shows with a dispatch
that is within the relation. What a listing of fields does is left open here, since it depends on
what the relation says about kept field lists. -/
theorem dispatch_within_of [Frame R] (user : call.Within R)
    (names : ∀ d : Dispatch, (∀ f arguments named, Along R (d.call f arguments named)) →
      (∀ v name, Along R (d.member v name)) → (∀ v, Along R (d.items v)) →
      ∀ s, Along R (allFieldNames d s)) (depth : Nat) : (call.dispatch depth).Within R := by
  induction depth with
  | zero =>
    exact ⟨fun _ _ _ => along_throw _, fun _ _ => along_throw _, fun _ => along_throw _,
      fun _ => along_throw _,
      names _ (fun _ _ _ => along_throw _) (fun _ _ => along_throw _) fun _ => along_throw _⟩
  | succ depth ih =>
    exact ⟨user _ ih, fun _ _ => along_readMember (d := call.dispatch depth) .., fun _ =>
      along_iterate (d := call.dispatch depth) _, fun _ => along_shown (d := call.dispatch depth) _,
      names _ (user _ ih) (fun _ _ => along_readMember (d := call.dispatch depth) ..) fun _ =>
        along_iterate (d := call.dispatch depth) _⟩

/-- For a relation that does not see kept field lists, nothing but the provider matters. -/
theorem dispatch_within [Frame.Lists R] (user : call.Within R) (depth : Nat) :
    (call.dispatch depth).Within R := by
  refine dispatch_within_of user (fun d call member items s => ?_) depth
  have := along_namesAlong call member items
  unfold allFieldNames
  infer_instance

end Provider

end DataShape
