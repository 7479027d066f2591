import Mathlib.Data.String.Basic
import Mathlib.Data.List.Nodup
import MustacheHtml.Dict

namespace MustacheHtml.Dict

variable {α : Type}

theorem set_nil (key : String) (value : α) : set [] key value = [(key, value)] := rfl

theorem set_cons (held key : String) (old value : α) (rest : Dict α) :
    set ((held, old) :: rest) key value =
      if held < key then (held, old) :: rest.set key value
      else if held = key then (key, value) :: rest
      else (key, value) :: (held, old) :: rest := rfl

theorem get?_nil (wanted : String) : get? ([] : Dict α) wanted = none := rfl

theorem get?_cons (held wanted : String) (value : α) (rest : Dict α) :
    get? ((held, value) :: rest) wanted = if held = wanted then some value else rest.get? wanted :=
  rfl

/-- The keys stand in increasing order, each once. -/
def Sorted (dict : Dict α) : Prop :=
  dict.keys.Pairwise (· < ·)

instance (dict : Dict α) : Decidable dict.Sorted :=
  inferInstanceAs (Decidable (dict.keys.Pairwise (· < ·)))

theorem sorted_nil : Sorted ([] : Dict α) :=
  List.Pairwise.nil

theorem Sorted.nodup {dict : Dict α} (hsorted : dict.Sorted) : dict.keys.Nodup :=
  List.Pairwise.imp (fun hlt => ne_of_lt hlt) hsorted

theorem mem_keys_set {dict : Dict α} {key other : String} {value : α} :
    other ∈ (dict.set key value).keys ↔ other = key ∨ other ∈ dict.keys := by
  induction dict with
  | nil => simp [set_nil, keys]
  | cons first rest ih =>
      obtain ⟨held, old⟩ := first
      simp only [keys] at ih
      by_cases hlt : held < key
      · simp only [set_cons, hlt, if_true, keys, List.map_cons, List.mem_cons, ih]
        rw [or_left_comm]
      · by_cases heq : held = key
        · simp [set_cons, keys, heq]
        · simp [set_cons, keys, hlt, heq]

theorem set_ne_nil (dict : Dict α) (key : String) (value : α) : dict.set key value ≠ [] := by
  intro hnil
  have hmem : key ∈ (dict.set key value).keys := mem_keys_set.mpr (.inl rfl)
  rw [hnil] at hmem
  exact List.not_mem_nil hmem

theorem Sorted.set {dict : Dict α} (hsorted : dict.Sorted) (key : String) (value : α) :
    (dict.set key value).Sorted := by
  induction dict with
  | nil => simp [set_nil, Sorted, keys]
  | cons first rest ih =>
      obtain ⟨held, old⟩ := first
      obtain ⟨hfirst, hrest⟩ := List.pairwise_cons.mp hsorted
      by_cases hlt : held < key
      · simp only [set_cons, hlt, if_true]
        refine List.pairwise_cons.mpr ⟨?_, ih hrest⟩
        intro other hother
        rcases mem_keys_set.mp hother with rfl | hother
        · exact hlt
        · exact hfirst other hother
      · by_cases heq : held = key
        · subst heq
          simpa [set_cons, Sorted, keys] using hsorted
        · have hgt : key < held := lt_of_le_of_ne (not_lt.mp hlt) (Ne.symm heq)
          simp only [set_cons, hlt, if_false, heq]
          refine List.pairwise_cons.mpr ⟨?_, hsorted⟩
          intro other hother
          rcases List.mem_cons.mp hother with rfl | hother
          · exact hgt
          · exact lt_trans hgt (hfirst other hother)

theorem set_of_lt_head {dict : Dict α} {key : String} (hhead : ∀ entry ∈ dict.head?, key < entry.1)
    (value : α) : dict.set key value = (key, value) :: dict := by
  cases dict with
  | nil => rfl
  | cons first rest =>
      have hlt : key < first.1 := hhead first rfl
      rw [set_cons, if_neg (lt_asymm hlt), if_neg (ne_of_gt hlt)]

theorem set_set (dict : Dict α) (key : String) (value replacement : α) :
    (dict.set key value).set key replacement = dict.set key replacement := by
  induction dict with
  | nil => simp [set_nil, set_cons]
  | cons first rest ih =>
      obtain ⟨held, old⟩ := first
      by_cases hlt : held < key
      · simp [set_cons, hlt, ih]
      · by_cases heq : held = key
        · simp [set_cons, heq]
        · simp [set_cons, hlt, heq]

theorem set_comm_of_lt (dict : Dict α) {key other : String} (hlt : key < other) (value more : α) :
    (dict.set key value).set other more = (dict.set other more).set key value := by
  induction dict with
  | nil => simp [set_nil, set_cons, hlt, lt_asymm hlt, ne_of_gt hlt]
  | cons first rest ih =>
      obtain ⟨held, old⟩ := first
      rcases lt_trichotomy held key with hbelow | rfl | habove
      · simp [set_cons, hbelow, lt_trans hbelow hlt, ih]
      · simp [set_cons, hlt]
      · -- Whichever key comes first in the rest, it is above the smaller one.
        have hhead : ∀ entry ∈ (set ((held, old) :: rest) other more).head?, key < entry.1 := by
          rw [set_cons]
          split
          · simpa using habove
          · split <;> simpa using hlt
        have hfirst : ∀ entry ∈ ((held, old) :: rest).head?, key < entry.1 := by
          simpa using habove
        rw [set_of_lt_head hhead, set_of_lt_head hfirst, set, if_pos hlt]

theorem set_comm (dict : Dict α) {key other : String} (hne : key ≠ other) (value more : α) :
    (dict.set key value).set other more = (dict.set other more).set key value := by
  rcases lt_or_gt_of_ne hne with hlt | hgt
  · exact set_comm_of_lt dict hlt value more
  · exact (set_comm_of_lt dict hgt more value).symm

theorem set_perm {dict : Dict α} {key : String} (hkey : key ∉ dict.keys) (value : α) :
    (dict.set key value).Perm ((key, value) :: dict) := by
  induction dict with
  | nil => exact List.Perm.refl _
  | cons first rest ih =>
      obtain ⟨held, old⟩ := first
      rw [keys, List.map_cons, List.mem_cons, not_or] at hkey
      by_cases hlt : held < key
      · simp only [set_cons, hlt, if_true]
        exact ((ih hkey.2).cons (held, old)).trans (List.Perm.swap _ _ _)
      · simp only [set_cons, hlt, if_false, if_neg (Ne.symm hkey.1)]
        exact List.Perm.refl _

theorem foldl_set_perm {entries : List (String × α)} {dict : Dict α}
    (hkeys : (entries.map Prod.fst).Nodup) (hapart : ∀ entry ∈ entries, entry.1 ∉ dict.keys) :
    (entries.foldl (fun dict entry => dict.set entry.1 entry.2) dict).Perm (entries ++ dict) := by
  induction entries generalizing dict with
  | nil => exact List.Perm.refl _
  | cons entry rest ih =>
      obtain ⟨hfirst, hrest⟩ := List.nodup_cons.mp hkeys
      obtain ⟨hentry, hothers⟩ := List.forall_mem_cons.mp hapart
      have hset : ∀ other ∈ rest, other.1 ∉ (dict.set entry.1 entry.2).keys := by
        intro other hother hmem
        rcases mem_keys_set.mp hmem with hsame | hmem
        · exact hfirst (hsame ▸ List.mem_map_of_mem hother)
        · exact hothers other hother hmem
      exact (ih hrest hset).trans
        (((set_perm hentry entry.2).append_left rest).trans List.perm_middle)

theorem ofList_perm {entries : List (String × α)} (hkeys : (entries.map Prod.fst).Nodup) :
    (ofList entries).Perm entries := by
  have hapart : ∀ entry ∈ entries, entry.1 ∉ keys ([] : Dict α) := fun _ _ => List.not_mem_nil
  have hperm := foldl_set_perm hkeys hapart
  rwa [List.append_nil] at hperm

theorem Sorted.foldl_set {dict : Dict α} (hsorted : dict.Sorted) (entries : List (String × α)) :
    (entries.foldl (fun dict entry => dict.set entry.1 entry.2) dict).Sorted := by
  induction entries generalizing dict with
  | nil => exact hsorted
  | cons entry rest ih => exact ih (hsorted.set entry.1 entry.2)

theorem sorted_ofList (entries : List (String × α)) : (ofList entries).Sorted :=
  sorted_nil.foldl_set entries

theorem Sorted.eq_of_perm {dict other : Dict α} (hdict : dict.Sorted) (hother : other.Sorted)
    (hperm : dict.Perm other) : dict = other := by
  have hbelow := List.pairwise_map.mp hdict
  refine hperm.eq_of_pairwise ?_ hbelow (List.pairwise_map.mp hother)
  intro first second _ _ hlt hgt
  exact absurd hgt (lt_asymm hlt)

theorem ofList_eq_of_perm {entries others : List (String × α)} (hperm : entries.Perm others)
    (hkeys : (entries.map Prod.fst).Nodup) : ofList entries = ofList others :=
  (sorted_ofList entries).eq_of_perm (sorted_ofList others) <|
    (ofList_perm hkeys).trans <| hperm.trans <|
      (ofList_perm ((hperm.map Prod.fst).nodup_iff.mp hkeys)).symm

theorem Sorted.ofList_eq {dict : Dict α} (hsorted : dict.Sorted) : ofList dict = dict :=
  (sorted_ofList dict).eq_of_perm hsorted (ofList_perm hsorted.nodup)

theorem lookup_map {β : Type} (change : α → β) (entries : List (String × α)) (wanted : String) :
    (entries.map fun entry => (entry.1, change entry.2)).lookup wanted =
      (entries.lookup wanted).map change := by
  induction entries with
  | nil => rfl
  | cons entry rest ih =>
      rw [List.map_cons, List.lookup_cons, List.lookup_cons, ih]
      split <;> rfl

theorem get?_map {β : Type} (change : String → α → β) (dict : Dict α) (wanted : String) :
    get? (dict.map fun (key, value) => (key, change key value)) wanted =
      (dict.get? wanted).map (change wanted) := by
  induction dict with
  | nil => rfl
  | cons first rest ih =>
      obtain ⟨key, value⟩ := first
      by_cases hkey : key = wanted
      · simp [get?_cons, hkey]
      · simpa [get?_cons, hkey] using ih

theorem get?_set (dict : Dict α) (key wanted : String) (value : α) :
    (dict.set key value).get? wanted = if key = wanted then some value else dict.get? wanted := by
  induction dict with
  | nil => rfl
  | cons first rest ih =>
      obtain ⟨held, old⟩ := first
      rw [set_cons]
      split
      · next hlt =>
          by_cases hwanted : held = wanted
          · have hkey : key ≠ wanted := fun hsame => (ne_of_lt hlt) (hwanted.trans hsame.symm)
            simp [get?_cons, hwanted, hkey]
          · simp [get?_cons, hwanted, ih]
      · split
        · next heq =>
            by_cases hwanted : key = wanted
            · simp [get?_cons, hwanted]
            · simp [get?_cons, hwanted, heq]
        · simp [get?_cons]

theorem get?_foldl_set (entries : List (String × α)) (dict : Dict α) (wanted : String) :
    (entries.foldl (fun dict entry => dict.set entry.1 entry.2) dict).get? wanted =
      (entries.reverse.lookup wanted).or (dict.get? wanted) := by
  induction entries generalizing dict with
  | nil => rfl
  | cons entry rest ih =>
      rw [List.foldl_cons, ih, get?_set, List.reverse_cons, List.lookup_append, Option.or_assoc]
      congr 1
      by_cases hkey : entry.1 = wanted
      · rw [if_pos hkey, ← hkey, List.lookup_cons_self, Option.some_or]
      · rw [if_neg hkey, List.lookup_cons, beq_false_of_ne (Ne.symm hkey)]
        rfl

theorem get?_ofList (entries : List (String × α)) (wanted : String) :
    (ofList entries).get? wanted = entries.reverse.lookup wanted := by
  rw [ofList, get?_foldl_set, get?_nil, Option.or_none]

theorem mem_of_get? {dict : Dict α} {key : String} {value : α}
    (hget : dict.get? key = some value) : (key, value) ∈ dict := by
  induction dict with
  | nil => cases hget
  | cons first rest ih =>
      rw [get?_cons] at hget
      split at hget
      · next hkey =>
          rw [← hkey, ← Option.some.inj hget]
          exact List.mem_cons_self
      · exact List.mem_cons_of_mem first (ih hget)

theorem mem_keys_of_get? {dict : Dict α} {key : String} {value : α}
    (hget : dict.get? key = some value) : key ∈ dict.keys :=
  List.mem_map_of_mem (mem_of_get? hget)

theorem get?_eq_none_of_lt {dict : Dict α} {key : String}
    (hbelow : ∀ other ∈ dict.keys, key < other) : dict.get? key = none := by
  rw [Option.eq_none_iff_forall_ne_some]
  intro value hget
  exact lt_irrefl key (hbelow key (mem_keys_of_get? hget))

theorem Sorted.ext {dict other : Dict α} (hdict : dict.Sorted) (hother : other.Sorted)
    (hget : ∀ key, dict.get? key = other.get? key) : dict = other := by
  induction dict generalizing other with
  | nil =>
      cases other with
      | nil => rfl
      | cons first rest =>
          obtain ⟨key, value⟩ := first
          have hfirst := hget key
          simp [get?_nil, get?_cons] at hfirst
  | cons first rest ih =>
      obtain ⟨key, value⟩ := first
      cases other with
      | nil =>
          have hfirst := hget key
          simp [get?_nil, get?_cons] at hfirst
      | cons second others =>
          obtain ⟨otherKey, otherValue⟩ := second
          obtain ⟨hbelow, hrest⟩ := List.pairwise_cons.mp hdict
          obtain ⟨hotherBelow, hothers⟩ := List.pairwise_cons.mp hother
          -- Each first key is found in the other dictionary, so neither is below the other.
          have hkeys : key = otherKey := by
            by_contra hne
            have hkey := hget key
            rw [get?_cons, if_pos rfl, get?_cons, if_neg (Ne.symm hne)] at hkey
            have hotherKey := hget otherKey
            rw [get?_cons, if_neg hne, get?_cons, if_pos rfl] at hotherKey
            exact lt_asymm (hotherBelow key (mem_keys_of_get? hkey.symm))
              (hbelow otherKey (mem_keys_of_get? hotherKey))
          subst hkeys
          have hvalue := hget key
          rw [get?_cons, if_pos rfl, get?_cons, if_pos rfl, Option.some.injEq] at hvalue
          have htail : rest = others := by
            refine ih hrest hothers fun wanted => ?_
            by_cases hwanted : key = wanted
            · rw [← hwanted, get?_eq_none_of_lt hbelow, get?_eq_none_of_lt hotherBelow]
            · have hsame := hget wanted
              rwa [get?_cons, if_neg hwanted, get?_cons, if_neg hwanted] at hsame
          rw [hvalue, htail]

end MustacheHtml.Dict
