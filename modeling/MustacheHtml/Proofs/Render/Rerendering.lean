import MustacheHtml.Proofs.Render.Bound
import MustacheHtml.Proofs.Render.Updating

namespace MustacheHtml.Render

open MustacheHtml.Document
open MustacheHtml.Document.Heap
open MustacheHtml.Document.Placed
open MustacheHtml.Template

variable {σ : Type} {host : Host σ} {world middle after : World σ}

/-- What may happen between updates, and the update of one binding. -/
inductive Event where
  | replaceData (data : Value)
  | setPath (path : List String) (value : Value)
  | update (index : Nat)

/-- The event may change the data. -/
def Event.ChangesData : Event → Prop
  | replaceData _ => True
  | setPath _ _ => True
  | update _ => False

/-- Updates the binding of that number, if there is one. -/
def updateAt (host : Host σ) (bindings : Bindings σ) (index : Nat) :
    Effect σ RenderError (Bindings σ) :=
  match bindings[index]? with
  | none => return bindings
  | some binding => do return bindings.set index (← binding.update host)

/-- What an event does; the bindings as they are after it. -/
def Event.play (host : Host σ) (bindings : Bindings σ) : Event → Effect σ RenderError (Bindings σ)
  | replaceData data => do
      modify fun world => { world with context := data }
      return bindings
  | setPath path value => do
      modify (·.setPath path value)
      return bindings
  | update index => updateAt host bindings index

/-- What events do one after the other. -/
def playAll (host : Host σ) (bindings : Bindings σ) :
    List Event → Effect σ RenderError (Bindings σ)
  | [] => return bindings
  | event :: rest => do
      let settled ← event.play host bindings
      playAll host settled rest

/-- The last change of the data lies before some of the events, and these update every one of the
bindings. -/
def UpdatesAll (count : Nat) (events : List Event) : Prop :=
  ∃ earlier later, events = earlier ++ later ∧ (∀ event ∈ later, ¬ event.ChangesData) ∧
    ∀ index < count, Event.update index ∈ later

/-- The fragment of a rendering, with the output that stands in it. -/
structure Live (world : World σ) (fragment : NodeId) (output : Output)
    (forest : Texts → Forest) : Prop where
  kind : world.heap.kind fragment = .fragment
  lies : world.heap.Lies fragment [] [] output.placed
  distinct : output.Distinct
  refreshed_eq : ∀ texts, output.refreshed texts = forest texts

/-- The slot of that number shows what its path has now. -/
def Output.CurrentAt (output : Output) (texts : Texts) (index : Nat) : Prop :=
  ∀ slot, output.slots[index]? = some slot → slot.Current texts

section Live

variable {fragment : NodeId} {output revised : Output} {forest : Texts → Forest}

/-- Where all parts are up to date the fragment shows what the data makes of the nodes. -/
theorem Live.innerHtml_eq (hlive : Live world fragment output forest)
    (hcurrent : ∀ slot ∈ output.slots, slot.Current world.textAt) :
    world.heap.innerHtml fragment =
      String.ofList (Tree.forestHtml false (forest world.textAt)) := by
  have htag : world.heap.tag? fragment = none := by rw [tag?, hlive.kind]
  have hinner : world.heap.innerForest fragment = forest world.textAt := by
    rw [← hlive.refreshed_eq, ← Output.trees_placed hcurrent]
    refine hlive.lies.holds.innerForest_eq ?_ (List.nodup_cons.mp hlive.lies.nodup).2
      hlive.lies.bound
    rw [hlive.lies.children, List.nil_append, List.append_nil]
  rw [innerHtml, htag, hinner]
  rfl

theorem Live.revise (hlive : Live world fragment output forest) {made : Heap} {index : Nat}
    {slot : Slot} (hreplaces : Replaces world.heap made fragment [] [] output revised index slot)
    (state : σ) : Live ⟨made, world.context, state⟩ fragment revised forest where
  kind := by
    rw [Heap.kind, hreplaces.revises.cell_parent]
    exact hlive.kind
  lies := hreplaces.revises.lies hlive.lies
  distinct := hreplaces.distinct hlive.distinct
  refreshed_eq := fun texts => (hreplaces.refreshed_eq texts).trans (hlive.refreshed_eq texts)

/-- What events do to a rendering: it stays alive, and as long as the data does not change the
parts that are up to date stay so, and those that are updated become so. -/
structure Plays (world after : World σ) (fragment : NodeId) (output revised : Output)
    (forest : Texts → Forest) (events : List Event) : Prop where
  live : Live after fragment revised forest
  count_eq : revised.slots.length = output.slots.length
  context_eq : (∀ event ∈ events, ¬ event.ChangesData) → after.context = world.context
  current : (∀ event ∈ events, ¬ event.ChangesData) → ∀ index,
    output.CurrentAt world.textAt index ∨ Event.update index ∈ events →
      revised.CurrentAt after.textAt index

theorem Plays.refl (hlive : Live world fragment output forest) :
    Plays world world fragment output output forest [] where
  live := hlive
  count_eq := rfl
  context_eq := fun _ => rfl
  current := fun _ _ hindex => hindex.resolve_right List.not_mem_nil

theorem Plays.trans {final : Output} {first rest : List Event}
    (hfirst : Plays world middle fragment output revised forest first)
    (hrest : Plays middle after fragment revised final forest rest) :
    Plays world after fragment output final forest (first ++ rest) where
  live := hrest.live
  count_eq := hrest.count_eq.trans hfirst.count_eq
  context_eq := by
    intro hkeep
    obtain ⟨hkeepFirst, hkeepRest⟩ := List.forall_mem_append.mp hkeep
    exact (hrest.context_eq hkeepRest).trans (hfirst.context_eq hkeepFirst)
  current := by
    intro hkeep index hindex
    obtain ⟨hkeepFirst, hkeepRest⟩ := List.forall_mem_append.mp hkeep
    apply hrest.current hkeepRest index
    rcases hindex with hcurrent | hupdate
    · exact .inl (hfirst.current hkeepFirst index (.inl hcurrent))
    · rcases List.mem_append.mp hupdate with hupdate | hupdate
      · exact .inl (hfirst.current hkeepFirst index (.inr hupdate))
      · exact .inr hupdate

theorem Plays.ofChange (hlive : Live world fragment output forest) (event : Event)
    (hchanges : event.ChangesData) (data : Value) :
    Plays world { world with context := data } fragment output output forest [event] where
  live := ⟨hlive.kind, hlive.lies, hlive.distinct, hlive.refreshed_eq⟩
  count_eq := rfl
  context_eq := fun hkeep => absurd hchanges (hkeep event List.mem_cons_self)
  current := fun hkeep => absurd hchanges (hkeep event List.mem_cons_self)

theorem Plays.ofUpdate (hlive : Live world fragment output forest) {made : Heap} {index : Nat}
    {updated : Slot}
    (hreplaces : Replaces world.heap made fragment [] [] output revised index updated)
    (hcurrent : updated.Current world.textAt) (state : σ) :
    Plays world ⟨made, world.context, state⟩ fragment output revised forest [.update index] where
  live := hlive.revise hreplaces state
  count_eq := by rw [hreplaces.slots_eq, List.length_set]
  context_eq := fun _ => rfl
  current := by
    intro _ other hother slot hslot
    rw [hreplaces.slots_eq, List.getElem?_set] at hslot
    by_cases hsame : index = other
    · rw [if_pos hsame] at hslot
      split at hslot
      · cases hslot
        exact hcurrent
      · cases hslot
    · rw [if_neg hsame] at hslot
      rcases hother with hkept | hmem
      · exact hkept slot hslot
      · cases List.mem_singleton.mp hmem
        exact absurd rfl hsame

theorem runIn_updateAt (hhost : host.Refuses fun _ => none)
    (hlive : Live world fragment output forest) (index : Nat) : ∃ after revised,
    (updateAt host output.bindings index).runIn world = (.ok revised.bindings, after) ∧
      Plays world after fragment output revised forest [.update index] := by
  unfold updateAt Output.bindings
  rw [List.getElem?_map]
  cases hslot : output.slots[index]? with
  | none =>
      refine ⟨world, output, rfl, hlive, rfl, fun _ => rfl, ?_⟩
      rintro - other (hcurrent | hmem)
      · exact hcurrent
      · cases List.mem_singleton.mp hmem
        intro slot hsome
        rw [hslot] at hsome
        cases hsome
  | some slot =>
      obtain ⟨made, state, revised, updated, hrun, hreplaces, hcurrent⟩ :=
        updates_of_lies hhost hlive.lies hlive.distinct hslot
      refine ⟨_, revised, (Effect.runIn_bind_ok hrun).trans ?_,
        Plays.ofUpdate hlive hreplaces hcurrent state⟩
      rw [hreplaces.slots_eq, List.map_set]
      rfl

theorem runIn_event (hhost : host.Refuses fun _ => none)
    (hlive : Live world fragment output forest) (event : Event) : ∃ after revised,
    (event.play host output.bindings).runIn world = (.ok revised.bindings, after) ∧
      Plays world after fragment output revised forest [event] := by
  cases event with
  | replaceData data =>
      exact ⟨_, output, rfl, Plays.ofChange hlive (.replaceData data) trivial data⟩
  | setPath path value =>
      exact ⟨_, output, rfl, Plays.ofChange hlive (.setPath path value) trivial _⟩
  | update index => exact runIn_updateAt hhost hlive index

theorem runIn_playAll (hhost : host.Refuses fun _ => none)
    (hlive : Live world fragment output forest) (events : List Event) : ∃ after revised,
    (playAll host output.bindings events).runIn world = (.ok revised.bindings, after) ∧
      Plays world after fragment output revised forest events := by
  induction events generalizing world output with
  | nil => exact ⟨world, output, rfl, Plays.refl hlive⟩
  | cons event rest ih =>
      obtain ⟨middle, revised, hrun, hplays⟩ := runIn_event hhost hlive event
      obtain ⟨after, final, hrest, hmore⟩ := ih hplays.live
      exact ⟨after, final, (Effect.runIn_bind_ok hrun).trans hrest, hplays.trans hmore⟩

theorem playAll_append (host : Host σ) (bindings : Bindings σ) (earlier later : List Event) :
    playAll host bindings (earlier ++ later) =
      playAll host bindings earlier >>= fun settled => playAll host settled later := by
  induction earlier generalizing bindings with
  | nil => rfl
  | cons event rest ih => simp only [List.cons_append, playAll, ih, bind_assoc]

/-- After a run that updates every binding at the end, all that is bound is up to date. -/
theorem runIn_playAll_updated (hhost : host.Refuses fun _ => none)
    (hlive : Live world fragment output forest) {events : List Event}
    (hevents : UpdatesAll output.slots.length events) : ∃ after revised,
    (playAll host output.bindings events).runIn world = (.ok revised.bindings, after) ∧
      Live after fragment revised forest ∧ ∀ slot ∈ revised.slots, slot.Current after.textAt := by
  obtain ⟨earlier, later, rfl, hkeep, hupdates⟩ := hevents
  obtain ⟨middle, between, hrun, hfirst⟩ := runIn_playAll hhost hlive earlier
  obtain ⟨after, revised, hrest, hlast⟩ := runIn_playAll hhost hfirst.live later
  refine ⟨after, revised, ?_, hlast.live, ?_⟩
  · rw [playAll_append]
    exact (Effect.runIn_bind_ok hrun).trans hrest
  · intro slot hmem
    obtain ⟨index, hslot⟩ := List.mem_iff_getElem?.mp hmem
    have hindex : index < revised.slots.length := (List.getElem?_eq_some_iff.mp hslot).1
    rw [hlast.count_eq, hfirst.count_eq] at hindex
    exact hlast.current hkeep index (.inr (hupdates index hindex)) slot hslot

end Live

theorem runIn_render_of_leaves {registry : Registry σ} {nodes : List Node} {good : Output → Prop}
    (hleaves : Leaves (renderNodes host registry world.heap.size nodes) world.heap.size
      (host.createFragment.run world).2 good)
    (hdistinct : ∀ output, good output → output.Distinct) : ∃ (after : World σ) (output : Output),
    (render host registry nodes).runIn world = (.ok (world.heap.size, output.bindings), after) ∧
      after.context = world.context ∧ good output ∧
        Live after world.heap.size output fun texts => output.refreshed texts := by
  have hcreate := Effect.runIn_lift (ε := RenderError) host.createFragment world
  have hmade := Stands.create world.heap .fragment
  obtain ⟨after, state, output, hrun, hgrows, hgood⟩ := hleaves
  have hstands := hmade.grow hgrows
  refine ⟨⟨after, world.context, state⟩, output,
    (Effect.runIn_bind_ok hcreate).trans (Effect.runIn_bind_ok hrun), rfl, hgood, ?_⟩
  constructor
  case kind => rw [Heap.kind, hstands.cell_new]
  case lies => exact hstands.lies
  case distinct => exact hdistinct output hgood
  case refreshed_eq => exact fun _ => rfl

theorem runIn_render (hhost : host.Refuses fun _ => none) {nodes : List Node}
    (hnodes : Bindable nodes) (world : World σ) : ∃ (after : World σ) (output : Output),
    (render host (bindingRegistry host) nodes).runIn world =
        (.ok (world.heap.size, output.bindings), after) ∧
      after.context = world.context ∧
        Live after world.heap.size output (shownForest · nodes) ∧
          ∀ slot ∈ output.slots, slot.Current after.textAt := by
  have hmade := Stands.create world.heap .fragment
  have hbinds : Binds (renderNodes host (bindingRegistry host) world.heap.size nodes)
      world.heap.size (host.createFragment.run world).2 (shownForest · nodes) :=
    binds_renderNodes hhost hnodes hmade.size_lt
  obtain ⟨after, output, hrun, hcontext, hshows, hlive⟩ :=
    runIn_render_of_leaves hbinds fun _ hshows => hshows.distinct
  refine ⟨after, output, hrun, hcontext, { hlive with refreshed_eq := hshows.refreshed_eq }, ?_⟩
  rw [World.textAt_congr hcontext]
  exact hshows.current

/-- Updating is as good as rendering again. After a rendering every run of events succeeds, and once
every binding has been updated since the data last changed, the fragment shows what a new
rendering with this data shows, in the same document or in any other. -/
theorem updates_show_rendering (hhost : host.Refuses fun _ => none) {nodes : List Node}
    (hnodes : Bindable nodes) (world : World σ) : ∃ fragment bindings rendered,
    (render host (bindingRegistry host) nodes).runIn world = (.ok (fragment, bindings), rendered) ∧
      ∀ events, ∃ settled after,
        (playAll host bindings events).runIn rendered = (.ok settled, after) ∧
          (UpdatesAll bindings.length events →
            ∀ other : World σ, other.context = after.context → ∃ again others fresh,
              (render host (bindingRegistry host) nodes).runIn other =
                  (.ok (again, others), fresh) ∧
                after.heap.innerHtml fragment = fresh.heap.innerHtml again) := by
  obtain ⟨rendered, output, hrender, -, hlive, -⟩ := runIn_render hhost hnodes world
  refine ⟨world.heap.size, output.bindings, rendered, hrender, ?_⟩
  intro events
  obtain ⟨after, revised, hplay, hplays⟩ := runIn_playAll hhost hlive events
  refine ⟨revised.bindings, after, hplay, ?_⟩
  intro hupdates other hcontext
  rw [Output.bindings, List.length_map] at hupdates
  obtain ⟨final, settled, hfinal, hsettled, hcurrent⟩ :=
    runIn_playAll_updated hhost hlive hupdates
  obtain rfl : after = final := congrArg Prod.snd (hplay.symm.trans hfinal)
  obtain ⟨fresh, again, hagain, hsame, hfresh, hnew⟩ := runIn_render hhost hnodes other
  refine ⟨other.heap.size, again.bindings, fresh, hagain, ?_⟩
  have htexts : after.textAt = fresh.textAt := by
    funext path
    rw [World.textAt, World.textAt, hsame, hcontext]
  rw [hsettled.innerHtml_eq hcurrent, hfresh.innerHtml_eq hnew, htexts]

section Card

def cardNodes : List Node :=
  [.element "p" [⟨"class", [.mustache ⟨.path ["kind"], true⟩]⟩]
    [.mustache ⟨.path ["name"], true⟩, .mustache ⟨.path ["body"], false⟩]]

def cardData : Value :=
  .map [("kind", .string "wide"), ("name", .string "Ada")]

/-- The markup comes and goes, and the bindings lag behind until the last four updates. -/
def cardEvents : List Event :=
  [.update 2, .setPath ["body"] (.string "<b>x</b>y"), .update 2, .update 0,
    .setPath ["body"] (.string ""), .setPath ["name"] (.string "Bob")] ++
  [.update 2, .update 1, .update 0, .update 2]

theorem updatesAll_cardEvents : UpdatesAll 3 cardEvents := by
  refine ⟨_, _, rfl, ?_, ?_⟩
  · simp [Event.ChangesData]
  · intro index hindex
    obtain rfl | rfl | rfl : index = 0 ∨ index = 1 ∨ index = 2 := by omega
    · simp
    · simp
    · simp

theorem bindable_cardNodes : Bindable cardNodes := by
  simp [cardNodes, Bindable, NodeBindable, IsWhole, Attribute.soleMustache?]

theorem updates_show_rendering_card :
    (Host.silent Unit).Refuses (fun _ => none) ∧ Bindable cardNodes ∧
      ∃ fragment bindings rendered,
        (render (Host.silent Unit) (bindingRegistry (Host.silent Unit)) cardNodes).runIn
            (plainWorld cardData) = (.ok (fragment, bindings), rendered) ∧
          UpdatesAll bindings.length cardEvents ∧ ∃ settled after,
            (playAll (Host.silent Unit) bindings cardEvents).runIn rendered =
                (.ok settled, after) ∧ ∃ again others fresh,
              (render (Host.silent Unit) (bindingRegistry (Host.silent Unit)) cardNodes).runIn
                  (plainWorld after.context) = (.ok (again, others), fresh) ∧
                after.heap.innerHtml fragment = fresh.heap.innerHtml again := by
  have hhost : (Host.silent Unit).Refuses fun _ => none := fun _ _ => rfl
  obtain ⟨fragment, bindings, rendered, hrender, hplay⟩ :=
    updates_show_rendering hhost bindable_cardNodes (plainWorld cardData)
  have hcount : ((render (Host.silent Unit) (bindingRegistry (Host.silent Unit)) cardNodes).runIn
      (plainWorld cardData)).1.map (·.2.length) = .ok 3 := rfl
  rw [hrender] at hcount
  have hlength : bindings.length = 3 := Except.ok.inj hcount
  have hupdates : UpdatesAll bindings.length cardEvents := by
    rw [hlength]
    exact updatesAll_cardEvents
  obtain ⟨settled, after, hsettled, hshows⟩ := hplay cardEvents
  exact ⟨hhost, bindable_cardNodes, fragment, bindings, rendered, hrender, hupdates, settled,
    after, hsettled, hshows hupdates (plainWorld after.context) rfl⟩

end Card

end MustacheHtml.Render
