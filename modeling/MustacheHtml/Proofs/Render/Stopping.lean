import MustacheHtml.Proofs.Render.Lasting
import MustacheHtml.Proofs.Render.Ownership
import MustacheHtml.Proofs.Render.Unchanged

namespace MustacheHtml.Document

variable {σ : Type}

/-- The host, with nothing to say against any markup. -/
def Host.lenient (host : Host σ) : Host σ :=
  { host with refusal? := fun _ _ => none }

theorem Host.lenient_refuses (host : Host σ) : host.lenient.Refuses fun _ => none :=
  fun _ _ => rfl

/-- What the host says against markup that is about to be parsed. -/
def Host.objection? (host : Host σ) (world : World σ) (markup : String) : Option String :=
  host.refusal? (host.observe (.parseFragment markup) world.heap world.host) markup

/-- A computation that fails changes neither the document nor the data. -/
def Effect.FailsCleanly {ε α : Type} (effect : Effect σ ε α) : Prop :=
  ∀ world error after, effect.runIn world = (.error error, after) →
    after.heap = world.heap ∧ after.context = world.context

end MustacheHtml.Document

namespace MustacheHtml.Render

open MustacheHtml.Document
open MustacheHtml.Document.Heap

variable {σ : Type} {host : Host σ} {world middle after : World σ} {binding updated : Binding σ}
  {bindings rest settled : Bindings σ} {error : RenderError} {path : List String}
  {first last : NodeId} {markup : String}

section ReplaceRun

theorem runIn_parseFragment_refused {message : String}
    (hobjects : host.objection? world markup = some message) :
    (parseFragment host markup).runIn world = (.error (.markup message),
      { world with host := host.observe (.parseFragment markup) world.heap world.host }) := by
  rw [Host.objection?] at hobjects
  simp only [parseFragment, Effect.runIn_adapt, Host.runIn_parseFragment_eq, hobjects]
  rfl

theorem runIn_parseFragment_accepted (haccepts : host.objection? world markup = none) :
    (parseFragment host markup).runIn world = (.ok world.heap.size,
      ⟨(world.heap.parseFragment markup).2, world.context,
        host.observe (.parseFragment markup) world.heap world.host⟩) := by
  rw [Host.objection?] at haccepts
  simp only [parseFragment, Effect.runIn_adapt, Host.runIn_parseFragment_eq, haccepts]
  rfl

theorem runIn_replaceRun_refused {parent : NodeId} {message : String}
    (hparent : world.heap.parent? first = some parent)
    (hobjects : host.objection? world markup = some message) :
    (Binding.replaceRun host first last markup).runIn world = (.error (.markup message),
      { world with host := host.observe (.parseFragment markup) world.heap world.host }) := by
  unfold Binding.replaceRun
  refine (Effect.runIn_bind_ok (Effect.runIn_get world)).trans ?_
  simp only [hparent]
  exact Effect.runIn_bind_error (runIn_parseFragment_refused hobjects)

theorem removeRun_lenient (parent last : NodeId) (count : Nat) (node : NodeId) :
    removeRun host.lenient parent last count node = removeRun host parent last count node := by
  induction count generalizing node with
  | zero => rfl
  | succ count ih =>
      simp only [removeRun, ih]
      rfl

theorem runIn_replaceRun_lenient (first last : NodeId)
    (haccepts : host.objection? world markup = none) :
    (Binding.replaceRun host first last markup).runIn world =
      (Binding.replaceRun host.lenient first last markup).runIn world := by
  cases hparent : world.heap.parent? first with
  | none => rw [runIn_replaceRun_parentless hparent, runIn_replaceRun_parentless hparent]
  | some parent =>
      have hlenient : host.lenient.objection? world markup = none := rfl
      unfold Binding.replaceRun
      simp only [Effect.runIn_bind_ok (Effect.runIn_get world), hparent,
        Effect.runIn_bind_ok (runIn_parseFragment_accepted haccepts),
        Effect.runIn_bind_ok (runIn_parseFragment_accepted hlenient), removeRun_lenient]
      rfl

theorem context_fragmentBounds (host : Host σ) (world : World σ) (fragment : NodeId) :
    ((fragmentBounds host fragment).run world).2.context = world.context := by
  simp only [fragmentBounds, StateT.run_bind, StateT.run_get, pure_bind]
  split <;> rfl

theorem context_removeRun (host : Host σ) (world : World σ) (parent last : NodeId) (count : Nat)
    (node : NodeId) :
    ((removeRun host parent last count node).run world).2.context = world.context := by
  induction count generalizing world node with
  | zero => rfl
  | succ count ih =>
      let removed : World σ := ((host.removeChild parent node).run world).2
      cases hnext : world.heap.nextSibling? node with
      | none =>
          simp only [removeRun, StateT.run_bind, StateT.run_get, pure_bind, hnext]
          rfl
      | some next =>
          simp only [removeRun, StateT.run_bind, StateT.run_get, pure_bind, hnext]
          split
          · rfl
          · exact ih removed next

theorem exists_runIn_replaceRun (first last : NodeId)
    (haccepts : host.objection? world markup = none) :
    ∃ newFirst newLast after, (Binding.replaceRun host first last markup).runIn world =
      (.ok (newFirst, newLast), after) ∧ after.context = world.context := by
  cases hparent : world.heap.parent? first with
  | none => exact ⟨first, last, world, runIn_replaceRun_parentless hparent markup, rfl⟩
  | some parent =>
      refine ⟨_, _, _, runIn_replaceRun_of_steps hparent (runIn_parseFragment_accepted haccepts)
        rfl rfl, ?_⟩
      exact (context_removeRun host _ parent last _ first).trans (context_fragmentBounds host _ _)

end ReplaceRun

section Update

theorem runIn_update_run_error
    (hreplace : (Binding.replaceRun host first last (world.textAt path)).runIn world =
      (.error error, after)) :
    (Binding.update host ⟨path, .fragment first last⟩).runIn world = (.error error, after) :=
  (Effect.runIn_bind_ok (Effect.runIn_get world)).trans (Effect.runIn_bind_error hreplace)

theorem runIn_update_computed (host : Host σ) (world : World σ) (path : List String)
    (effect : Effect σ String Unit) :
    (Binding.update host ⟨path, .computed effect⟩).runIn world =
      (((effect.runIn world).1.mapError (RenderError.resolution "binding")).map
        fun _ => ⟨path, .computed effect⟩, (effect.runIn world).2) := by
  refine (Effect.runIn_bind_ok (Effect.runIn_get world)).trans ?_
  obtain ⟨⟨result, after⟩, hrun⟩ : ∃ ended, effect.runIn world = ended := ⟨_, rfl⟩
  have hadapted : Effect.runIn (ExceptT.adapt (RenderError.resolution "binding") effect) world =
      (result.mapError (RenderError.resolution "binding"), after) := by
    rw [Effect.runIn_adapt, hrun]
  rw [hrun]
  cases result with
  | error cause => exact Effect.runIn_bind_error hadapted
  | ok value => exact (Effect.runIn_bind_ok hadapted).trans rfl

theorem update_computed_ok {effect : Effect σ String Unit}
    (hupdate : (Binding.update host ⟨path, .computed effect⟩).runIn world = (.ok updated, after)) :
    updated = ⟨path, .computed effect⟩ ∧ effect.runIn world = (.ok (), after) := by
  rw [runIn_update_computed] at hupdate
  obtain ⟨⟨result, later⟩, hrun⟩ : ∃ ended, effect.runIn world = ended := ⟨_, rfl⟩
  rw [hrun] at hupdate
  cases result with
  | error cause => cases hupdate
  | ok value =>
      cases hupdate
      exact ⟨rfl, hrun⟩

theorem runIn_update_lenient (haccepts : host.objection? world (world.textAt path) = none) :
    (Binding.update host ⟨path, .fragment first last⟩).runIn world =
      (Binding.update host.lenient ⟨path, .fragment first last⟩).runIn world := by
  have hreplace := runIn_replaceRun_lenient first last haccepts
  obtain ⟨newFirst, newLast, after, hrun, -⟩ := exists_runIn_replaceRun first last haccepts
  rw [runIn_update_run hrun, runIn_update_run (hreplace.symm.trans hrun)]

/-- An update that fails leaves the document and the data alone, as long as computations do. -/
theorem update_fails_cleanly
    (hclean : ∀ effect, binding.target = .computed effect → effect.FailsCleanly)
    (hfails : (binding.update host).runIn world = (.error error, after)) :
    after.heap = world.heap ∧ after.context = world.context := by
  obtain ⟨path, target⟩ := binding
  cases target with
  | text node => cases hfails
  | «attribute» element name => cases hfails
  | fragment first last =>
      cases hobjects : host.objection? world (world.textAt path) with
      | none =>
          obtain ⟨newFirst, newLast, later, hrun, -⟩ :=
            exists_runIn_replaceRun first last hobjects
          cases hfails.symm.trans (runIn_update_run hrun)
      | some message =>
          cases hparent : world.heap.parent? first with
          | none =>
              cases hfails.symm.trans
                (runIn_update_run (runIn_replaceRun_parentless hparent _))
          | some parent =>
              cases hfails.symm.trans
                (runIn_update_run_error (runIn_replaceRun_refused hparent hobjects))
              exact ⟨rfl, rfl⟩
  | computed effect =>
      rw [runIn_update_computed] at hfails
      obtain ⟨⟨result, later⟩, hrun⟩ : ∃ ended, effect.runIn world = ended := ⟨_, rfl⟩
      rw [hrun] at hfails
      cases result with
      | ok value => cases hfails
      | error cause =>
          cases hfails
          exact hclean effect rfl world cause later hrun

namespace Binding

/-- Nothing stands in the way of an update: the host takes the text as markup in any state, or the
computation succeeds in any document and leaves the data alone. -/
def Unhindered (host : Host σ) (data : Value) (binding : Binding σ) : Prop :=
  match binding.target with
  | .fragment _ _ => ∀ state, host.refusal? state (data.lookup binding.path).render = none
  | .computed effect => ∀ world, world.context = data →
      ∃ after, effect.runIn world = (.ok (), after) ∧ after.context = data
  | _ => True

theorem Unhindered.update (hfree : binding.Unhindered host world.context) :
    ∃ updated after, (binding.update host).runIn world = (.ok updated, after) ∧
      after.context = world.context := by
  obtain ⟨path, target⟩ := binding
  cases target with
  | text node => exact ⟨_, _, rfl, rfl⟩
  | «attribute» element name => exact ⟨_, _, rfl, rfl⟩
  | fragment first last =>
      have haccepts : host.objection? world (world.textAt path) = none := hfree _
      obtain ⟨newFirst, newLast, after, hrun, hcontext⟩ :=
        exists_runIn_replaceRun first last haccepts
      exact ⟨_, _, runIn_update_run hrun, hcontext⟩
  | computed effect =>
      obtain ⟨after, hrun, hcontext⟩ := hfree world rfl
      refine ⟨⟨path, .computed effect⟩, after, ?_, hcontext⟩
      rw [runIn_update_computed, hrun]
      rfl

/-- The binding without the ends of its run, which are all that an update can change in it. -/
def bare (binding : Binding σ) : Binding σ :=
  match binding.target with
  | .fragment _ _ => { binding with target := .fragment 0 0 }
  | _ => binding

theorem unhindered_bare {data : Value} :
    binding.bare.Unhindered host data ↔ binding.Unhindered host data := by
  obtain ⟨path, target⟩ := binding
  cases target <;> rfl

theorem bare_update (hupdate : (binding.update host).runIn world = (.ok updated, after)) :
    updated.bare = binding.bare := by
  obtain ⟨path, target⟩ := binding
  cases target with
  | text node =>
      cases hupdate
      rfl
  | «attribute» element name =>
      cases hupdate
      rfl
  | fragment first last =>
      obtain ⟨⟨result, later⟩, hrun⟩ : ∃ ended,
        (Binding.replaceRun host first last (world.textAt path)).runIn world = ended := ⟨_, rfl⟩
      cases result with
      | error error => cases hupdate.symm.trans (runIn_update_run_error hrun)
      | ok ends =>
          cases hupdate.symm.trans (runIn_update_run hrun)
          rfl
  | computed effect => rw [(update_computed_ok hupdate).1]

end Binding

end Update

/-- Bindings are updated one after the other, each by its own update, and all updates succeed. -/
inductive UpdatesInTurn (host : Host σ) : World σ → Bindings σ → Bindings σ → World σ → Prop
  | nil (world : World σ) : UpdatesInTurn host world [] [] world
  | cons {world middle after : World σ} {binding updated : Binding σ} {rest others : Bindings σ}
      (hupdate : (binding.update host).runIn world = (.ok updated, middle))
      (hrest : UpdatesInTurn host middle rest others after) :
      UpdatesInTurn host world (binding :: rest) (updated :: others) after

section UpdateAll

theorem UpdatesInTurn.map_bare (hupdates : UpdatesInTurn host world bindings settled after) :
    settled.map Binding.bare = bindings.map Binding.bare := by
  induction hupdates with
  | nil world => rfl
  | cons hupdate _ ih => rw [List.map_cons, List.map_cons, Binding.bare_update hupdate, ih]

theorem run_updateAll_cons_error
    (hupdate : (binding.update host).runIn world = (.error error, after)) :
    (Binding.updateAll host (binding :: rest)).run world =
      ((binding :: rest, .error error), after) := by
  have hrun : (binding.update host).run.run world = (.error error, after) := hupdate
  rw [Binding.updateAll, StateT.run_bind, hrun]
  rfl

/-- Where updating all ends: with all updates done, or before the first that fails. -/
theorem updateAll_cases (host : Host σ) (bindings : Bindings σ) (world : World σ) :
    (∃ settled after, (Binding.updateAll host bindings).run world = ((settled, .ok ()), after) ∧
      UpdatesInTurn host world bindings settled after) ∨
    ∃ done binding rest updated middle error after, bindings = done ++ binding :: rest ∧
      (Binding.updateAll host bindings).run world =
        ((updated ++ binding :: rest, .error error), after) ∧
      UpdatesInTurn host world done updated middle ∧
      (binding.update host).runIn middle = (.error error, after) := by
  induction bindings generalizing world with
  | nil => exact .inl ⟨[], world, rfl, .nil world⟩
  | cons binding rest ih =>
      obtain ⟨⟨result, middle⟩, hupdate⟩ : ∃ ended, (binding.update host).runIn world = ended :=
        ⟨_, rfl⟩
      cases result with
      | error error =>
          exact .inr ⟨[], binding, rest, [], world, error, middle, rfl,
            run_updateAll_cons_error hupdate, .nil world, hupdate⟩
      | ok updated =>
          rcases ih middle with ⟨settled, after, hrun, hupdates⟩ |
            ⟨done, failing, others, settled, last, error, after, rfl, hrun, hupdates, hfails⟩
          · exact .inl ⟨updated :: settled, after, run_updateAll_cons hupdate hrun,
              .cons hupdate hupdates⟩
          · exact .inr ⟨binding :: done, failing, others, updated :: settled, last, error, after,
              rfl, run_updateAll_cons hupdate hrun, .cons hupdate hupdates, hfails⟩

theorem exists_updateAll (hfree : ∀ binding ∈ bindings, binding.Unhindered host world.context) :
    ∃ settled after, (Binding.updateAll host bindings).run world = ((settled, .ok ()), after) := by
  induction bindings generalizing world with
  | nil => exact ⟨[], world, rfl⟩
  | cons binding rest ih =>
      obtain ⟨hbinding, hrest⟩ := List.forall_mem_cons.mp hfree
      obtain ⟨updated, middle, hupdate, hcontext⟩ := hbinding.update
      obtain ⟨settled, after, hrun⟩ := ih (hcontext ▸ hrest)
      exact ⟨updated :: settled, after, run_updateAll_cons hupdate hrun⟩

end UpdateAll

end MustacheHtml.Render
