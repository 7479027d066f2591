import MustacheHtml.Proofs.Render.Output

namespace MustacheHtml.Render

open MustacheHtml.Document
open MustacheHtml.Document.Heap
open MustacheHtml.Document.Placed

variable {σ : Type} {host : Host σ} {world : World σ}

theorem runIn_update_text (host : Host σ) (world : World σ) (path : List String) (node : NodeId) :
    (Binding.update host ⟨path, .text node⟩).runIn world =
      (.ok ⟨path, .text node⟩, ⟨world.heap.setText node (world.textAt path), world.context,
        host.observe (.setText node (world.textAt path)) world.heap world.host⟩) := rfl

theorem runIn_update_attribute (host : Host σ) (world : World σ) (path : List String)
    (owner : NodeId) (name : String) :
    (Binding.update host ⟨path, .attribute owner name⟩).runIn world =
      (.ok ⟨path, .attribute owner name⟩,
        ⟨world.heap.setAttribute owner name (world.textAt path), world.context,
          host.observe (.setAttribute owner name (world.textAt path)) world.heap world.host⟩) :=
  rfl

theorem runIn_update_run {path : List String} {first last newFirst newLast : NodeId}
    {after : World σ} (hreplace : (Binding.replaceRun host first last (world.textAt path)).runIn
      world = (.ok (newFirst, newLast), after)) :
    (Binding.update host ⟨path, .fragment first last⟩).runIn world =
      (.ok ⟨path, .fragment newFirst newLast⟩, after) := by
  refine (Effect.runIn_bind_ok (Effect.runIn_get world)).trans ?_
  exact (Effect.runIn_bind_ok hreplace).trans rfl

namespace LiveAttribute

variable {node : NodeId} {front back : List LiveAttribute} {attr : LiveAttribute}
  {path : List String}

theorem exists_of_slots {attributes : List LiveAttribute} {index : Nat} {slot : Slot}
    (hslot : (slots node attributes)[index]? = some slot) : ∃ front attr back path,
      attributes = front ++ attr :: back ∧ attr.path? = some path ∧
        slot = .attribute path node attr.name attr.value ∧ index = (slots node front).length := by
  induction attributes generalizing index with
  | nil => simp [slots] at hslot
  | cons first rest ih =>
      cases hpath : first.path? with
      | none =>
          have hskip : first.slot? node = none := by rw [slot?, hpath, Option.map_none]
          rw [slots, List.filterMap_cons_none hskip] at hslot
          obtain ⟨front, attr, back, path, rfl, hattr, hsame, rfl⟩ := ih hslot
          refine ⟨first :: front, attr, back, path, rfl, hattr, hsame, ?_⟩
          rw [slots, slots, List.filterMap_cons_none hskip]
      | some path =>
          have htake : first.slot? node = some (.attribute path node first.name first.value) := by
            rw [slot?, hpath, Option.map_some]
          rw [slots, List.filterMap_cons_some htake] at hslot
          cases index with
          | zero =>
              obtain rfl := Option.some.inj hslot
              exact ⟨[], first, rest, path, rfl, hpath, rfl, rfl⟩
          | succ index =>
              obtain ⟨front, attr, back, path, rfl, hattr, hsame, rfl⟩ := ih hslot
              refine ⟨first :: front, attr, back, path, rfl, hattr, hsame, ?_⟩
              rw [slots, slots, List.filterMap_cons_some htake, List.length_cons]

theorem slots_set (hpath : attr.path? = some path) (value : String) :
    slots node (front ++ { attr with value := value } :: back) =
      (slots node (front ++ attr :: back)).set (slots node front).length
        (.attribute path node attr.name value) := by
  simp [slots, slot?, hpath]

theorem refreshed_set (hpath : attr.path? = some path) (value : String) (texts : Texts) :
    (front ++ { attr with value := value } :: back).map (refreshed texts) =
      (front ++ attr :: back).map (refreshed texts) := by
  simp [refreshed, hpath]

theorem pairs_set (hnames : ((front ++ attr :: back).map name).Nodup) (value : String) :
    Attributes.set ((front ++ attr :: back).map pair) attr.name value =
      (front ++ { attr with value := value } :: back).map pair := by
  have hname : attr.name ∉ (front.map pair).map (·.1) := by
    rw [List.map_append, List.map_cons] at hnames
    rw [List.map_map]
    exact fun hmem => (List.nodup_append'.mp hnames).2.2 hmem List.mem_cons_self
  rw [List.map_append, List.map_append, List.map_cons, List.map_cons]
  exact Attributes.set_append_cons attr.value value hname

end LiveAttribute

/-- The output has been replaced where it lies, by output of the same shape that differs in one
bound part. -/
structure Replaces (heap after : Heap) (parent : NodeId) (before behind : List NodeId)
    (output revised : Output) (index : Nat) (slot : Slot) : Prop where
  revises : heap.Revises after parent before behind output.placed revised.placed
  slots_eq : revised.slots = output.slots.set index slot
  refreshed_eq : ∀ texts, revised.refreshed texts = output.refreshed texts
  distinct : output.Distinct → revised.Distinct

namespace Replaces

variable {heap after : Heap} {parent node : NodeId} {before behind : List NodeId} {index : Nat}
  {slot : Slot} {rest revised children : Output} {tag content : String} {path : List String}
  {placed : List Placed} {attributes : List LiveAttribute}

theorem text (hlies : heap.Lies parent before behind (Output.text path node content rest).placed)
    (value : String) : Replaces heap (heap.setText node value) parent before behind
      (.text path node content rest) (.text path node value rest) 0 (.text path node value) where
  revises :=
    have hown : heap.Lies parent before (roots rest.placed ++ behind) [.text node content] :=
      Lies.front hlies
    Revises.front hlies (hown.setText value)
  slots_eq := rfl
  refreshed_eq := fun _ => rfl
  distinct := id

theorem run {first newFirst : Placed} {others newOthers : List Placed}
    (hlies : heap.Lies parent before behind (Output.run path first others rest).placed)
    (hrevises : heap.Revises after parent before (roots rest.placed ++ behind) (first :: others)
      (newFirst :: newOthers)) : Replaces heap after parent before behind
      (.run path first others rest) (.run path newFirst newOthers rest) 0
        (.run path newFirst newOthers) where
  revises := Revises.front hlies hrevises
  slots_eq := rfl
  refreshed_eq := fun _ => rfl
  distinct := id

theorem setAttribute {front back : List LiveAttribute} {attr : LiveAttribute}
    (hlies : heap.Lies parent before behind
      (Output.element node tag (front ++ attr :: back) children rest).placed)
    (hnames : ((front ++ attr :: back).map LiveAttribute.name).Nodup)
    (hpath : attr.path? = some path) (value : String) :
    Replaces heap (heap.setAttribute node attr.name value) parent before behind
      (.element node tag (front ++ attr :: back) children rest)
      (.element node tag (front ++ { attr with value := value } :: back) children rest)
      (LiveAttribute.slots node front).length (.attribute path node attr.name value) where
  revises := by
    have hown : heap.Lies parent before (roots rest.placed ++ behind)
        [.element node tag ((front ++ attr :: back).map LiveAttribute.pair) children.placed] :=
      Lies.front hlies
    have hset := hown.setAttribute attr.name value
    rw [LiveAttribute.pairs_set hnames] at hset
    exact Revises.front hlies hset
  slots_eq := by
    have hindex : (LiveAttribute.slots node front).length <
        (LiveAttribute.slots node (front ++ attr :: back)).length := by
      simp [LiveAttribute.slots, LiveAttribute.slot?, hpath]
    rw [Output.slots, Output.slots, LiveAttribute.slots_set hpath,
      List.set_append_left _ _ hindex]
  refreshed_eq := by
    intro texts
    rw [Output.refreshed, Output.refreshed, LiveAttribute.refreshed_set hpath]
  distinct := by
    rintro ⟨hnames, hrest⟩
    refine ⟨?_, hrest⟩
    simpa using hnames

theorem below (hlies : heap.Lies parent before behind
      (Output.element node tag attributes children rest).placed)
    (hreplaces : Replaces heap after node [] [] children revised index slot)
    (hindex : index < children.slots.length) : Replaces heap after parent before behind
      (.element node tag attributes children rest) (.element node tag attributes revised rest)
        ((LiveAttribute.slots node attributes).length + index) slot where
  revises :=
    have hown : heap.Lies parent before (roots rest.placed ++ behind)
        [.element node tag (attributes.map LiveAttribute.pair) children.placed] :=
      Lies.front hlies
    Revises.front hlies (hreplaces.revises.below hown)
  slots_eq := by
    rw [Output.slots, Output.slots, hreplaces.slots_eq, List.set_append_right _ _ (by omega),
      Nat.add_sub_cancel_left, List.set_append_left _ _ hindex]
  refreshed_eq := fun texts => by rw [Output.refreshed, Output.refreshed, hreplaces.refreshed_eq]
  distinct := fun hdistinct => ⟨hdistinct.1, hreplaces.distinct hdistinct.2.1, hdistinct.2.2⟩

theorem behind_front {front : Output}
    (hlies : heap.Lies parent before behind (front.append rest).placed)
    (hreplaces : Replaces heap after parent (before ++ roots front.placed) behind rest revised index
      slot) : Replaces heap after parent before behind (front.append rest) (front.append revised)
        (front.slots.length + index) slot where
  revises := by
    rw [Output.placed_append] at hlies ⊢
    rw [Output.placed_append]
    exact hreplaces.revises.rest hlies
  slots_eq := by
    rw [Output.slots_append, Output.slots_append, hreplaces.slots_eq,
      List.set_append_right _ _ (by omega), Nat.add_sub_cancel_left]
  refreshed_eq := by
    intro texts
    rw [Output.refreshed_append, Output.refreshed_append, hreplaces.refreshed_eq]
  distinct := by
    rw [Output.distinct_append, Output.distinct_append]
    exact fun hdistinct => ⟨hdistinct.1, hreplaces.distinct hdistinct.2⟩

theorem current {output : Output} {texts : Texts}
    (hreplaces : Replaces heap after parent before behind output revised index slot)
    (hcurrent : ∀ slot ∈ output.slots, slot.Current texts) (hslot : slot.Current texts) :
    ∀ slot ∈ revised.slots, slot.Current texts := by
  intro other hother
  rw [hreplaces.slots_eq] at hother
  rcases List.mem_or_eq_of_mem_set hother with hold | rfl
  · exact hcurrent other hold
  · exact hslot

end Replaces

/-- Updating the binding of a part succeeds, and brings this part of the output up to date. -/
def Updates (host : Host σ) (world : World σ) (parent : NodeId) (before behind : List NodeId)
    (output : Output) (index : Nat) (slot : Slot) : Prop :=
  ∃ after state revised updated,
    (slot.binding.update host).runIn world =
        (.ok updated.binding, ⟨after, world.context, state⟩) ∧
      Replaces world.heap after parent before behind output revised index updated ∧
        updated.Current world.textAt

section Updates

variable {parent : NodeId} {before behind : List NodeId} {index whole : Nat} {slot : Slot}
  {rest : Output}

theorem Updates.behind_front (front : Output)
    (hlies : world.heap.Lies parent before behind (front.append rest).placed)
    (hupdates : world.heap.Lies parent (before ++ roots front.placed) behind rest.placed →
      Updates host world parent (before ++ roots front.placed) behind rest index slot)
    (hwhole : whole = front.slots.length + index) :
    Updates host world parent before behind (front.append rest) whole slot := by
  rw [Output.placed_append] at hlies
  obtain ⟨after, state, revised, updated, hrun, hreplaces, hcurrent⟩ := hupdates hlies.rest
  rw [← Output.placed_append] at hlies
  rw [hwhole]
  exact ⟨after, state, front.append revised, updated, hrun, hreplaces.behind_front hlies,
    hcurrent⟩

/-- Every part of the output can be updated where it lies. -/
theorem updates_of_lies (hhost : host.Refuses fun _ => none) {output : Output}
    (hlies : world.heap.Lies parent before behind output.placed) (hdistinct : output.Distinct)
    (hslot : output.slots[index]? = some slot) :
    Updates host world parent before behind output index slot := by
  induction output generalizing parent before behind index with
  | nil => simp [Output.slots] at hslot
  | still placed rest ih =>
      exact Updates.behind_front (.still placed .nil) hlies
        (fun hrest => ih hrest hdistinct hslot) (Nat.zero_add _).symm
  | text path node content rest ih =>
      cases index with
      | zero =>
          obtain rfl := Option.some.inj hslot
          exact ⟨_, _, _, .text path node (world.textAt path),
            runIn_update_text host world path node, Replaces.text hlies _, rfl⟩
      | succ index =>
          exact Updates.behind_front (.text path node content .nil) hlies
            (fun hrest => ih hrest hdistinct hslot) (Nat.add_comm _ _)
  | run path first others rest ih =>
      cases index with
      | zero =>
          obtain rfl := Option.some.inj hslot
          have hown : world.heap.Lies parent before (roots rest.placed ++ behind)
              (first :: others) := Lies.front hlies
          obtain ⟨after, state, newFirst, newOthers, hreplace, hrevises, htrees⟩ :=
            runIn_replaceRun hhost hown (world.textAt path)
          exact ⟨after, state, _, .run path newFirst newOthers, runIn_update_run hreplace,
            Replaces.run hlies hrevises, htrees⟩
      | succ index =>
          exact Updates.behind_front (.run path first others .nil) hlies
            (fun hrest => ih hrest hdistinct hslot) (Nat.add_comm _ _)
  | element node tag attributes children rest ihChildren ih =>
      obtain ⟨hnames, hchildren, hrest⟩ := hdistinct
      rw [Output.slots] at hslot
      by_cases hown : index < (LiveAttribute.slots node attributes).length
      · rw [List.getElem?_append_left hown] at hslot
        obtain ⟨front, attr, back, path, rfl, hpath, rfl, rfl⟩ :=
          LiveAttribute.exists_of_slots hslot
        exact ⟨_, _, _, .attribute path node attr.name (world.textAt path),
          runIn_update_attribute host world path node attr.name,
          Replaces.setAttribute hlies hnames hpath _, rfl⟩
      · obtain ⟨index, rfl⟩ := Nat.exists_eq_add_of_le (Nat.not_lt.mp hown)
        rw [List.getElem?_append_right (Nat.le_add_right _ _), Nat.add_sub_cancel_left] at hslot
        by_cases hinner : index < children.slots.length
        · rw [List.getElem?_append_left hinner] at hslot
          obtain ⟨after, state, revised, updated, hrun, hreplaces, hcurrent⟩ :=
            ihChildren (Lies.element (Lies.front hlies)).2 hchildren hslot
          exact ⟨after, state, _, updated, hrun, hreplaces.below hlies hinner, hcurrent⟩
        · obtain ⟨index, rfl⟩ := Nat.exists_eq_add_of_le (Nat.not_lt.mp hinner)
          rw [List.getElem?_append_right (Nat.le_add_right _ _), Nat.add_sub_cancel_left] at hslot
          refine Updates.behind_front (.element node tag attributes children .nil) hlies
            (fun hbehind => ih hbehind hrest hslot) ?_
          simp [Output.slots, Nat.add_assoc]

end Updates

end MustacheHtml.Render
