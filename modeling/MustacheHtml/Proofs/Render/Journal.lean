import MustacheHtml.Render.Rendering
import MustacheHtml.Proofs.Dict
import MustacheHtml.Proofs.Document.Beside

/-!
A journal of the calls made while something is rendered. It is kept beside the world: a computation
that keeps one does what it does without.
-/

namespace MustacheHtml.Render

open MustacheHtml.Document

variable {σ : Type}

/-- Who is called. -/
inductive Addressee where
  | helper (name : String)
  | hook (kind : HookKind)
deriving DecidableEq, Repr

def Addressee.name : Addressee → String
  | helper name => name
  | hook kind => kind.name

/-- Who is called, and all that it is told but the node it is called on. -/
structure Call where
  addressee : Addressee
  request : Request
  types : List TypeTag
  hashTypes : Dict TypeTag
  position : Position

/-- The call that an invocation makes. -/
def Call.ofInvocation (addressee : Addressee) (invocation : Invocation) : Call where
  addressee := addressee
  request := invocation.request
  types := invocation.request.types
  hashTypes := invocation.request.hashTypes
  position := invocation.position

/-- A call that was made, and the cause of its failure if it failed. -/
structure CallRecord where
  call : Call
  failure : Option String

/-- The calls made, in the order in which they were made. -/
abbrev Journal := List CallRecord

/-- A call that has succeeded. -/
def Call.done (call : Call) : CallRecord :=
  ⟨call, none⟩

/-- A call that has failed. -/
def Call.failed (call : Call) (cause : String) : CallRecord :=
  ⟨call, some cause⟩

section Keeping

def Target.keeping : Target σ → Target (σ × Journal)
  | .text node => .text node
  | .fragment first last => .fragment first last
  | .attribute element name => .attribute element name
  | .computed update => .computed (update.beside Journal)

/-- The same binding on a host that keeps a journal as well. -/
def Binding.keeping (binding : Binding σ) : Binding (σ × Journal) :=
  ⟨binding.path, binding.target.keeping⟩

def Outcome.keeping : Outcome σ → Outcome (σ × Journal)
  | .value text => .value text
  | .handled => .handled
  | .bound binding => .bound binding.keeping

def failure? {α : Type} : Except String α → Option String
  | .ok _ => none
  | .error cause => some cause

@[simp] theorem failure?_map {α β : Type} (change : α → β) (outcome : Except String α) :
    failure? (outcome.map change) = failure? outcome := by
  cases outcome <;> rfl

/-- Calls the callee and notes the call. -/
def Callee.keeping (callee : Callee σ) (addressee : Addressee) : Callee (σ × Journal) :=
  fun invocation => ExceptT.mk fun world =>
    let (outcome, after) := (callee invocation).runIn world.alone
    let made : CallRecord := ⟨Call.ofInvocation addressee invocation, failure? outcome⟩
    (outcome.map Outcome.keeping, after.beside (world.host.2 ++ [made]))

/-- The same helpers and hooks, of which each call goes into the journal. -/
def Registry.keeping (registry : Registry σ) : Registry (σ × Journal) where
  helpers := registry.helpers.map fun (name, helper) => (name, helper.keeping (.helper name))
  resolve := registry.resolve.map fun hook => hook.keeping (.hook .resolve)
  resolveAttribute := registry.resolveAttribute.map fun hook =>
    hook.keeping (.hook .resolveAttribute)

end Keeping

/-- How the calls that were made go with those that are prescribed: all of them were made and did
not fail; or one failed and was the last; or markup was refused after some of them. -/
inductive Follows {α : Type} (calls : List Call) : Journal → Except RenderError α → Prop where
  | finished (value : α) : Follows calls (calls.map Call.done) (.ok value)
  | failed {earlier later : List Call} {call : Call} (cause : String)
      (hcalls : calls = earlier ++ call :: later) :
      Follows calls (earlier.map Call.done ++ [call.failed cause])
        (.error (.resolution call.addressee.name cause))
  | refused {earlier later : List Call} (message : String) (hcalls : calls = earlier ++ later) :
      Follows calls (earlier.map Call.done) (.error (.markup message))

/-- The second computation does what the first one does, with the result changed into one that
belongs beside a journal, and notes calls that follow the prescribed ones. -/
def Keeps {α β : Type} (plain : Effect σ RenderError α)
    (keeping : Effect (σ × Journal) RenderError β) (change : α → β) (calls : List Call) : Prop :=
  ∀ world journal, ∃ made,
    keeping.runIn (world.beside journal) =
        ((plain.runIn world).1.map change, (plain.runIn world).2.beside (journal ++ made)) ∧
      Follows calls made (plain.runIn world).1

section Keeps

variable {α β γ δ : Type} {plain : Effect σ RenderError α}
  {keeping : Effect (σ × Journal) RenderError β} {change : α → β} {first second : List Call}

theorem Keeps.pure (value : α) (change : α → β) :
    Keeps (pure value : Effect σ RenderError α) (pure (change value)) change [] := by
  intro world journal
  refine ⟨[], ?_, .finished value⟩
  rw [List.append_nil]
  rfl

theorem Keeps.lift {action : StateM (World σ) α} {beside : StateM (World (σ × Journal)) α}
    (haction : ∀ world journal, beside.run (world.beside journal) =
      ((action.run world).1, (action.run world).2.beside journal)) :
    Keeps (liftM action : Effect σ RenderError α) (liftM beside) id [] := by
  intro world journal
  refine ⟨[], ?_, .finished _⟩
  rw [List.append_nil, Effect.runIn_lift, Effect.runIn_lift, haction]
  rfl

theorem Follows.prepend {journal : Journal} {outcome : Except RenderError γ}
    (hfollows : Follows second journal outcome) :
    Follows (first ++ second) (first.map Call.done ++ journal) outcome := by
  cases hfollows with
  | finished value =>
      rw [← List.map_append]
      exact .finished value
  | failed cause hcalls =>
      rw [← List.append_assoc, ← List.map_append, hcalls, ← List.append_assoc]
      exact .failed cause rfl
  | refused message hcalls =>
      rw [← List.map_append, hcalls, ← List.append_assoc]
      exact .refused message rfl

theorem Follows.extend {journal : Journal} {error : RenderError}
    (hfollows : Follows (α := α) first journal (.error error)) (second : List Call) :
    Follows (α := γ) (first ++ second) journal (.error error) := by
  cases hfollows with
  | failed cause hcalls =>
      rw [hcalls, List.append_assoc]
      exact .failed cause rfl
  | refused message hcalls =>
      rw [hcalls, List.append_assoc]
      exact .refused message rfl

theorem Keeps.bind {next : α → Effect σ RenderError γ}
    {nextKeeping : β → Effect (σ × Journal) RenderError δ} {nextChange : γ → δ}
    (hfirst : Keeps plain keeping change first)
    (hnext : ∀ value, Keeps (next value) (nextKeeping (change value)) nextChange second) :
    Keeps (plain >>= next) (keeping >>= nextKeeping) nextChange (first ++ second) := by
  intro world journal
  obtain ⟨made, hrun, hfollows⟩ := hfirst world journal
  cases hplain : plain.runIn world with
  | mk result middle =>
      rw [hplain] at hrun hfollows
      cases result with
      | error error =>
          refine ⟨made, ?_, ?_⟩
          · rw [Effect.runIn_bind_error hplain, Effect.runIn_bind_error hrun]
            rfl
          · rw [Effect.runIn_bind_error hplain]
            exact hfollows.extend second
      | ok value =>
          obtain ⟨more, hmore, hothers⟩ := hnext value middle (journal ++ made)
          cases hfollows
          refine ⟨first.map Call.done ++ more, ?_, ?_⟩
          · rw [Effect.runIn_bind_ok hplain, Effect.runIn_bind_ok hrun, hmore, List.append_assoc]
          · rw [Effect.runIn_bind_ok hplain]
            exact hothers.prepend

theorem Keeps.bind_silent {next : α → Effect σ RenderError γ}
    {nextKeeping : β → Effect (σ × Journal) RenderError δ} {nextChange : γ → δ}
    (hfirst : Keeps plain keeping change first)
    (hnext : ∀ value, Keeps (next value) (nextKeeping (change value)) nextChange []) :
    Keeps (plain >>= next) (keeping >>= nextKeeping) nextChange first := by
  rw [← List.append_nil first]
  exact hfirst.bind hnext

end Keeps

end MustacheHtml.Render
