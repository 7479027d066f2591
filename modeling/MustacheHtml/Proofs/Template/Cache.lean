import Mathlib.Data.List.Dedup
import Mathlib.Data.List.DropRight
import MustacheHtml.Proofs.Dict
import MustacheHtml.Proofs.Results
import MustacheHtml.Template

/-!
What a cache of templates gives does not depend on what it holds: after any calls a request gives
what compiling the source gives. The calls tell only which of the templates are the very same.
-/

namespace MustacheHtml.TemplateCache

/-- What a cache is asked for. -/
inductive Call where
  | request (source : String)
  | clear
deriving DecidableEq, Repr

/-- The source that is asked for, if it is a template. -/
def Call.compiled? : Call → Option String
  | request source => if (CompiledTemplate.compile source).isOk then some source else none
  | clear => none

/-- The cache after a call. A request that fails leaves it as it was. -/
def afterCall (cache : TemplateCache) : Call → TemplateCache
  | .request source =>
      match cache.getOrCompile source with
      | .ok (_, after) => after
      | .error _ => cache
  | .clear => cache.clear

/-- The cache after some calls. -/
def afterCalls (cache : TemplateCache) (calls : List Call) : TemplateCache :=
  calls.foldl afterCall cache

/-- What a request gives after calls to a cache that was empty at first. -/
def answer (calls : List Call) (source : String) : Except Template.ParseError CachedTemplate :=
  ((afterCalls {} calls).getOrCompile source).map Prod.fst

/-- The sources asked for with success since the last time the cache was cleared. -/
def requested (calls : List Call) : List String :=
  (calls.rtakeWhile (· ≠ .clear)).filterMap Call.compiled?

section Steps

variable {cache : TemplateCache} {source : String} {held : CachedTemplate} {serial : Nat}

theorem getOrCompile_cases (cache : TemplateCache) (source : String) :
    (∃ held, cache.entries.get? source = some held ∧
        cache.getOrCompile source = .ok (held, cache)) ∨
      (∃ error, cache.entries.get? source = none ∧ CompiledTemplate.compile source = .error error ∧
        cache.getOrCompile source = .error error) ∨
      ∃ template, cache.entries.get? source = none ∧
        CompiledTemplate.compile source = .ok template ∧
        cache.getOrCompile source = .ok (⟨cache.nextSerial, template⟩,
          ⟨cache.entries.set source ⟨cache.nextSerial, template⟩, cache.nextSerial + 1⟩) := by
  cases hget : cache.entries.get? source with
  | some held => exact .inl ⟨held, rfl, by simp only [getOrCompile, hget]⟩
  | none =>
      cases hcompile : CompiledTemplate.compile source with
      | error error =>
          refine .inr (.inl ⟨error, rfl, rfl, ?_⟩)
          simp only [getOrCompile, hget, hcompile]
          rfl
      | ok template =>
          refine .inr (.inr ⟨template, rfl, rfl, ?_⟩)
          simp only [getOrCompile, hget, hcompile]
          rfl

theorem afterCall_cases (cache : TemplateCache) (call : Call) :
    call = .clear ∧ cache.afterCall call = cache.clear ∨ cache.afterCall call = cache ∨
      ∃ source template, cache.entries.get? source = none ∧
        cache.afterCall call =
          ⟨cache.entries.set source ⟨cache.nextSerial, template⟩, cache.nextSerial + 1⟩ := by
  cases call with
  | clear => exact .inl ⟨rfl, rfl⟩
  | request source =>
      rcases cache.getOrCompile_cases source with
        ⟨held, -, hrequest⟩ | ⟨error, -, -, hrequest⟩ | ⟨template, hnone, -, hrequest⟩
      · exact .inr (.inl (by simp only [afterCall, hrequest]))
      · exact .inr (.inl (by simp only [afterCall, hrequest]))
      · exact .inr (.inr ⟨source, template, hnone, by simp only [afterCall, hrequest]⟩)

theorem get?_set_of_none {made : CachedTemplate} {other : String}
    (hnone : cache.entries.get? source = none) (hheld : cache.entries.get? other = some held) :
    (cache.entries.set source made).get? other = some held := by
  have hne : source ≠ other := by
    rintro rfl
    rw [hnone] at hheld
    cases hheld
  rw [Dict.get?_set, if_neg hne, hheld]

theorem get?_afterCall {call : Call} (hcall : call ≠ .clear)
    (hheld : cache.entries.get? source = some held) :
    (cache.afterCall call).entries.get? source = some held := by
  rcases cache.afterCall_cases call with ⟨hclear, -⟩ | hsame | ⟨other, template, hnone, hkeep⟩
  · exact absurd hclear hcall
  · rw [hsame, hheld]
  · rw [hkeep]
    exact get?_set_of_none hnone hheld

theorem nextSerial_le_afterCall (cache : TemplateCache) (call : Call) :
    cache.nextSerial ≤ (cache.afterCall call).nextSerial := by
  rcases cache.afterCall_cases call with ⟨-, hclear⟩ | hsame | ⟨source, template, -, hkeep⟩
  · rw [hclear]
    exact Nat.le_refl _
  · rw [hsame]
  · rw [hkeep]
    exact Nat.le_succ _

/-- A serial number that has been given to a template which is not held any more. -/
def Retired (cache : TemplateCache) (serial : Nat) : Prop :=
  serial < cache.nextSerial ∧
    ∀ source held, cache.entries.get? source = some held → held.serial ≠ serial

theorem Retired.afterCall (hretired : cache.Retired serial) (call : Call) :
    (cache.afterCall call).Retired serial := by
  obtain ⟨hlt, hapart⟩ := hretired
  refine ⟨Nat.lt_of_lt_of_le hlt (cache.nextSerial_le_afterCall call), ?_⟩
  intro source held hheld
  rcases cache.afterCall_cases call with ⟨-, hclear⟩ | hsame | ⟨other, template, -, hkeep⟩
  · rw [hclear] at hheld
    cases hheld
  · rw [hsame] at hheld
    exact hapart source held hheld
  · rw [hkeep, Dict.get?_set] at hheld
    split at hheld
    · cases hheld
      exact Nat.ne_of_gt hlt
    · exact hapart source held hheld

end Steps

section Runs

variable {cache : TemplateCache} {source : String} {held : CachedTemplate} {serial : Nat}
  {calls : List Call}

theorem get?_afterCalls (hclear : .clear ∉ calls) (hheld : cache.entries.get? source = some held) :
    (cache.afterCalls calls).entries.get? source = some held := by
  induction calls generalizing cache with
  | nil => exact hheld
  | cons call rest ih =>
      rw [List.mem_cons, not_or] at hclear
      exact ih hclear.2 (get?_afterCall (Ne.symm hclear.1) hheld)

theorem nextSerial_le_afterCalls (cache : TemplateCache) (calls : List Call) :
    cache.nextSerial ≤ (cache.afterCalls calls).nextSerial := by
  induction calls generalizing cache with
  | nil => exact Nat.le_refl _
  | cons call rest ih => exact Nat.le_trans (cache.nextSerial_le_afterCall call) (ih _)

theorem Retired.afterCalls (hretired : cache.Retired serial) (calls : List Call) :
    (cache.afterCalls calls).Retired serial := by
  induction calls generalizing cache with
  | nil => exact hretired
  | cons call rest ih => exact ih (hretired.afterCall call)

theorem retired_of_clear (hclear : .clear ∈ calls) (hserial : serial < cache.nextSerial) :
    (cache.afterCalls calls).Retired serial := by
  obtain ⟨earlier, later, rfl⟩ := List.append_of_mem hclear
  have hcleared : ((cache.afterCalls earlier).afterCall .clear).Retired serial := by
    refine ⟨Nat.lt_of_lt_of_le hserial (cache.nextSerial_le_afterCalls earlier), ?_⟩
    intro source held hheld
    cases hheld
  rw [afterCalls, List.foldl_append]
  exact hcleared.afterCalls later

end Runs

/-- What a cache holds once the given sources have been asked for with success: a template of its
own for each of them, which is what compiling gives. -/
structure Holds (cache : TemplateCache) (sources : List String) : Prop where
  sorted : cache.entries.Sorted
  mem_keys : ∀ source, source ∈ cache.entries.keys ↔ source ∈ sources
  compiled : ∀ source held, cache.entries.get? source = some held →
    CompiledTemplate.compile source = .ok held.template
  serial_lt : ∀ source held, cache.entries.get? source = some held →
    held.serial < cache.nextSerial
  serial_inj : ∀ source other held kept, cache.entries.get? source = some held →
    cache.entries.get? other = some kept → held.serial = kept.serial → source = other

namespace Holds

variable {cache : TemplateCache} {sources : List String} {source : String}

theorem nil (nextSerial : Nat) : Holds ⟨[], nextSerial⟩ [] where
  sorted := Dict.sorted_nil
  mem_keys := fun _ => Iff.rfl
  compiled := nofun
  serial_lt := nofun
  serial_inj := nofun

theorem again (hholds : cache.Holds sources) {held : CachedTemplate}
    (hheld : cache.entries.get? source = some held) : cache.Holds (sources ++ [source]) where
  sorted := hholds.sorted
  mem_keys := by
    intro other
    have hsource : source ∈ sources := (hholds.mem_keys source).mp (Dict.mem_keys_of_get? hheld)
    rw [hholds.mem_keys, List.mem_append, List.mem_singleton]
    exact ⟨.inl, fun hother => hother.elim id fun hsame => hsame ▸ hsource⟩
  compiled := hholds.compiled
  serial_lt := hholds.serial_lt
  serial_inj := hholds.serial_inj

theorem keep (hholds : cache.Holds sources) {template : CompiledTemplate}
    (hcompile : CompiledTemplate.compile source = .ok template) :
    Holds ⟨cache.entries.set source ⟨cache.nextSerial, template⟩, cache.nextSerial + 1⟩
      (sources ++ [source]) := by
  have hcases : ∀ {other : String} {held : CachedTemplate},
      (cache.entries.set source ⟨cache.nextSerial, template⟩).get? other = some held →
        source = other ∧ ⟨cache.nextSerial, template⟩ = held ∨
          cache.entries.get? other = some held := by
    intro other held hget
    rw [Dict.get?_set] at hget
    split at hget
    · next hsame => exact .inl ⟨hsame, Option.some.inj hget⟩
    · exact .inr hget
  constructor
  case sorted => exact hholds.sorted.set source _
  case mem_keys =>
    intro other
    rw [Dict.mem_keys_set, hholds.mem_keys, List.mem_append, List.mem_singleton, or_comm]
  case compiled =>
    intro other held hget
    rcases hcases hget with ⟨rfl, rfl⟩ | hold
    · exact hcompile
    · exact hholds.compiled other held hold
  case serial_lt =>
    intro other held hget
    rcases hcases hget with ⟨rfl, rfl⟩ | hold
    · exact Nat.lt_succ_self _
    · exact Nat.lt_succ_of_lt (hholds.serial_lt other held hold)
  case serial_inj =>
    intro left right held kept hheld hkept hserial
    rcases hcases hheld with ⟨rfl, rfl⟩ | hheld
    · rcases hcases hkept with ⟨rfl, rfl⟩ | hkept
      · rfl
      · exact absurd hserial (Nat.ne_of_gt (hholds.serial_lt right kept hkept))
    · rcases hcases hkept with ⟨rfl, rfl⟩ | hkept
      · exact absurd hserial (Nat.ne_of_lt (hholds.serial_lt left held hheld))
      · exact hholds.serial_inj left right held kept hheld hkept hserial

theorem request (hholds : cache.Holds sources) (source : String) :
    (cache.afterCall (.request source)).Holds
      (sources ++ (Call.compiled? (.request source)).toList) := by
  rcases cache.getOrCompile_cases source with
    ⟨held, hheld, hrequest⟩ | ⟨error, -, hcompile, hrequest⟩ | ⟨template, -, hcompile, hrequest⟩
  · have hcompile := hholds.compiled source held hheld
    simp only [afterCall, hrequest, Call.compiled?, hcompile]
    exact hholds.again hheld
  · simp only [afterCall, hrequest, Call.compiled?, hcompile]
    simpa [Except.isOk, Except.toBool] using hholds
  · simp only [afterCall, hrequest, Call.compiled?, hcompile]
    exact hholds.keep hcompile

theorem size_eq (hholds : cache.Holds sources) : cache.size = sources.dedup.length := by
  have hperm : cache.entries.keys.Perm sources.dedup := by
    rw [List.perm_ext_iff_of_nodup hholds.sorted.nodup (List.nodup_dedup sources)]
    intro source
    rw [hholds.mem_keys, List.mem_dedup]
  rw [← hperm.length_eq, Dict.keys, List.length_map, size]

theorem map_template (hholds : cache.Holds sources) (source : String) :
    (cache.getOrCompile source).map (·.1.template) = CompiledTemplate.compile source := by
  rcases cache.getOrCompile_cases source with
    ⟨held, hheld, hrequest⟩ | ⟨error, -, hcompile, hrequest⟩ | ⟨template, -, hcompile, hrequest⟩
  · rw [hrequest, hholds.compiled source held hheld]
    rfl
  · rw [hrequest, hcompile]
    rfl
  · rw [hrequest, hcompile]
    rfl

end Holds

theorem holds_afterCalls (calls : List Call) : (afterCalls {} calls).Holds (requested calls) := by
  induction calls using List.reverseRecOn with
  | nil => exact .nil 0
  | append_singleton calls call ih =>
      rw [afterCalls, List.foldl_append]
      cases call with
      | clear =>
          have hnone : requested (calls ++ [.clear]) = [] := by
            rw [requested, List.rtakeWhile_concat_neg _ _ _ (by simp)]
            rfl
          rw [hnone]
          exact .nil _
      | request source =>
          have hmore : requested (calls ++ [.request source]) =
              requested calls ++ (Call.compiled? (.request source)).toList := by
            rw [requested, List.rtakeWhile_concat_pos _ _ _ (by simp), List.filterMap_append,
              requested]
            congr 1
          rw [hmore]
          exact ih.request source

section Identity

variable {cache : TemplateCache} {source : String} {found held : CachedTemplate}
  {earlier between : List Call} {first second : String}

theorem get?_of_request {after : TemplateCache}
    (hrequest : cache.getOrCompile source = .ok (found, after)) :
    cache.afterCall (.request source) = after ∧ after.entries.get? source = some found := by
  refine ⟨by simp only [afterCall, hrequest], ?_⟩
  rcases cache.getOrCompile_cases source with
    ⟨held, hheld, heq⟩ | ⟨error, -, -, heq⟩ | ⟨template, -, -, heq⟩
  · rw [hrequest] at heq
    cases heq
    exact hheld
  · rw [hrequest] at heq
    cases heq
  · rw [hrequest] at heq
    cases heq
    rw [Dict.get?_set, if_pos rfl]

theorem get?_or_new {after : TemplateCache}
    (hrequest : cache.getOrCompile source = .ok (found, after)) :
    cache.entries.get? source = some found ∨
      cache.entries.get? source = none ∧ found.serial = cache.nextSerial := by
  rcases cache.getOrCompile_cases source with
    ⟨held, hheld, heq⟩ | ⟨error, -, -, heq⟩ | ⟨template, hnone, -, heq⟩
  · rw [hrequest] at heq
    cases heq
    exact .inl hheld
  · rw [hrequest] at heq
    cases heq
  · rw [hrequest] at heq
    cases heq
    exact .inr ⟨hnone, rfl⟩

theorem Retired.serial_ne {after : TemplateCache} (hretired : cache.Retired held.serial)
    (hrequest : cache.getOrCompile source = .ok (found, after)) : found.serial ≠ held.serial := by
  rcases get?_or_new hrequest with hfound | ⟨-, hnew⟩
  · exact hretired.2 source found hfound
  · rw [hnew]
    exact Nat.ne_of_gt hretired.1

theorem Holds.serial_eq_iff {sources : List String} {after : TemplateCache}
    (hholds : cache.Holds sources) (hheld : cache.entries.get? first = some held)
    (hrequest : cache.getOrCompile second = .ok (found, after)) :
    found.serial = held.serial ↔ second = first := by
  rcases get?_or_new hrequest with hfound | ⟨hnone, hnew⟩
  · refine ⟨hholds.serial_inj second first found held hfound hheld, ?_⟩
    rintro rfl
    rw [hfound] at hheld
    cases hheld
    rfl
  · have hlt := hholds.serial_lt first held hheld
    refine iff_of_false (fun hserial => ?_) ?_
    · exact absurd (hserial.symm.trans hnew) (Nat.ne_of_lt hlt)
    · rintro rfl
      rw [hnone] at hheld
      cases hheld

theorem exists_of_answer {calls : List Call} (hanswer : answer calls source = .ok found) :
    ∃ after, (afterCalls {} calls).getOrCompile source = .ok (found, after) := by
  rw [answer] at hanswer
  cases hrequest : (afterCalls {} calls).getOrCompile source with
  | error error =>
      rw [hrequest] at hanswer
      cases hanswer
  | ok given =>
      rw [hrequest] at hanswer
      cases hanswer
      exact ⟨given.2, rfl⟩

/-- Two requests give the very same template just when they ask for the same source and the cache
has not been cleared between them. -/
theorem serial_eq_iff_of_answers (hfirst : answer earlier first = .ok held)
    (hsecond : answer (earlier ++ .request first :: between) second = .ok found) :
    found.serial = held.serial ↔ second = first ∧ .clear ∉ between := by
  obtain ⟨after, hrequest⟩ := exists_of_answer hfirst
  obtain ⟨final, hagain⟩ := exists_of_answer hsecond
  obtain ⟨hafter, hheld⟩ := get?_of_request hrequest
  have hsplit : afterCalls {} (earlier ++ .request first :: between) =
      after.afterCalls between := by
    rw [afterCalls, List.foldl_append, List.foldl_cons, ← hafter]
    rfl
  have hgiven : after.Holds (requested (earlier ++ [.request first])) := by
    have hholds := holds_afterCalls (earlier ++ [.request first])
    rwa [afterCalls, List.foldl_append, List.foldl_cons, List.foldl_nil, ← afterCalls, hafter]
      at hholds
  have hholds := holds_afterCalls (earlier ++ .request first :: between)
  rw [hsplit] at hagain hholds
  by_cases hclear : .clear ∈ between
  · have hretired := retired_of_clear hclear (hgiven.serial_lt first held hheld)
    exact iff_of_false (hretired.serial_ne hagain) fun hsame => hsame.2 hclear
  · rw [hholds.serial_eq_iff (get?_afterCalls hclear hheld) hagain]
    exact (and_iff_left hclear).symm

end Identity

/-- After any calls a request gives what compiling gives, a failing request changes nothing, the
cache counts the sources asked for since it was cleared, and what an earlier request gave is given
again just for its source and as long as the cache is not cleared. -/
theorem transparent_after_calls (calls : List Call) (source : String) :
    (answer calls source).map CachedTemplate.template = CompiledTemplate.compile source ∧
      (∀ error, CompiledTemplate.compile source = .error error →
        afterCalls {} (calls ++ [.request source]) = afterCalls {} calls) ∧
      (afterCalls {} calls).size = (requested calls).dedup.length ∧
      ((afterCalls {} calls).isEmpty ↔ (afterCalls {} calls).size = 0) ∧
      ∀ earlier first between held found, calls = earlier ++ .request first :: between →
        answer earlier first = .ok held → answer calls source = .ok found →
          (found.serial = held.serial ↔ source = first ∧ .clear ∉ between) := by
  have hholds := holds_afterCalls calls
  refine ⟨?_, ?_, hholds.size_eq, ?_, ?_⟩
  · rw [← hholds.map_template source, answer]
    cases (afterCalls {} calls).getOrCompile source <;> rfl
  · intro error hcompile
    rw [afterCalls, List.foldl_append, List.foldl_cons, List.foldl_nil, ← afterCalls]
    rcases (afterCalls {} calls).getOrCompile_cases source with
      ⟨held, hheld, -⟩ | ⟨failure, -, -, hrequest⟩ | ⟨template, -, hcompiled, -⟩
    · rw [hholds.compiled source held hheld] at hcompile
      cases hcompile
    · simp only [afterCall, hrequest]
    · rw [hcompiled] at hcompile
      cases hcompile
  · rw [isEmpty, List.isEmpty_iff, size, List.length_eq_zero_iff]
  · rintro earlier first between held found rfl hfirst hsecond
    exact serial_eq_iff_of_answers hfirst hsecond

/-- A source that is asked for before and after the cache is cleared. -/
def pageCalls : List Call :=
  [.request "<p>", .request "{{x}}", .request "a", .clear, .request "{{x}}", .request "a"]

theorem transparent_after_calls_page :
    (∃ error, CompiledTemplate.compile "<p>" = .error error) ∧
      afterCalls {} (pageCalls ++ [.request "<p>"]) = afterCalls {} pageCalls ∧
      (afterCalls {} pageCalls).size = (requested pageCalls).dedup.length ∧
      ∃ old kept found, answer [.request "<p>"] "{{x}}" = .ok old ∧
        answer (pageCalls.take 4) "{{x}}" = .ok kept ∧ answer pageCalls "{{x}}" = .ok found ∧
          found.serial ≠ old.serial ∧ found.serial = kept.serial := by
  have given : ∀ {calls source} (serial : Nat),
      (answer calls source).map (·.serial) = .ok serial →
        ∃ found, answer calls source = .ok found := by
    intro calls source serial hserial
    cases hanswer : answer calls source with
    | ok found => exact ⟨found, rfl⟩
    | error error =>
        rw [hanswer] at hserial
        cases hserial
  have refused : ∃ error, CompiledTemplate.compile "<p>" = .error error := by
    have hnot : (CompiledTemplate.compile "<p>").isOk = false := by decide +kernel
    cases hcompile : CompiledTemplate.compile "<p>" with
    | ok template =>
        rw [hcompile] at hnot
        cases hnot
    | error error => exact ⟨error, rfl⟩
  obtain ⟨error, herror⟩ := refused
  obtain ⟨old, hold⟩ : ∃ old, answer [.request "<p>"] "{{x}}" = .ok old :=
    given 0 (by decide +kernel)
  obtain ⟨kept, hkept⟩ : ∃ kept, answer (pageCalls.take 4) "{{x}}" = .ok kept :=
    given 2 (by decide +kernel)
  obtain ⟨found, hfound⟩ : ∃ found, answer pageCalls "{{x}}" = .ok found :=
    given 2 (by decide +kernel)
  obtain ⟨-, -, -, -, hsame⟩ := transparent_after_calls pageCalls "{{x}}"
  obtain ⟨-, hkeeps, hsize, -, -⟩ := transparent_after_calls pageCalls "<p>"
  refine ⟨⟨error, herror⟩, hkeeps error herror, hsize, old, kept, found, hold, hkept, hfound, ?_⟩
  constructor
  · rw [ne_eq, hsame [.request "<p>"] "{{x}}" (pageCalls.drop 2) old found rfl hold hfound]
    decide
  · rw [hsame (pageCalls.take 4) "{{x}}" (pageCalls.drop 5) kept found rfl hkept hfound]
    decide

end MustacheHtml.TemplateCache
