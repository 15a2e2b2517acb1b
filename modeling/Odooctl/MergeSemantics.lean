import Mathlib.Data.List.Basic
import Mathlib.Data.Option.Basic

/-!
# Merging string maps

The two ways in which a cluster rewrites a map: a merge patch keeps every key the patch
does not name, a three-way merge keeps every live key that no applied manifest ever
named. Both leave exactly the requested map only where no such key exists.
-/
namespace MergeSemantics

variable {α β : Type} {cmp : α → α → Ordering}

/-- Merge of a patch without nulls. -/
def mergePatch (live patch : Std.ExtTreeMap α β cmp) [Std.TransCmp cmp] :
    Std.ExtTreeMap α β cmp := live ∪ patch

/-- A key that left the applied manifest is deleted, a key of the manifest is set, any
other live key stays. -/
def threeWay (applied manifest live : Std.ExtTreeMap α β cmp) [Std.TransCmp cmp] :
    Std.ExtTreeMap α β cmp := live.filter (fun k _ => !applied.contains k) ∪ manifest

/-- Every entry of the selector is an entry of the labels. -/
def Matches [Std.TransCmp cmp] (selector labels : Std.ExtTreeMap α β cmp) : Prop :=
  ∀ (k : α) (v : β), selector[k]? = some v → labels[k]? = some v

variable [Std.TransCmp cmp] {live patch applied manifest a b c : Std.ExtTreeMap α β cmp}

theorem Matches.refl (a : Std.ExtTreeMap α β cmp) : Matches a a := fun _ _ h => h

theorem Matches.trans (h : Matches a b) (k : Matches b c) : Matches a c :=
  fun x v hx => k x v (h x v hx)

theorem getElem?_mergePatch (k : α) : (mergePatch live patch)[k]? = patch[k]?.or live[k]? :=
  Std.ExtTreeMap.getElem?_union

theorem getElem?_threeWay [Std.LawfulEqCmp cmp] (k : α) :
    (threeWay applied manifest live)[k]? =
      manifest[k]?.or (live[k]?.filter fun _ => !applied.contains k) := by
  rw [threeWay, Std.ExtTreeMap.getElem?_union, Std.ExtTreeMap.getElem?_filter']

theorem matches_mergePatch (live patch : Std.ExtTreeMap α β cmp) :
    Matches patch (mergePatch live patch) := by
  intro k v h
  rw [getElem?_mergePatch, h, Option.some_or]

theorem matches_threeWay [Std.LawfulEqCmp cmp] (applied manifest live : Std.ExtTreeMap α β cmp) :
    Matches manifest (threeWay applied manifest live) := by
  intro k v h
  rw [getElem?_threeWay, h, Option.some_or]

theorem eq_none_of_not_mem {k : α} (h : k ∉ a) : a[k]? = none := by
  simpa using h

/-- A patch replaces the live map exactly where it names every live key. -/
theorem mergePatch_eq_patch_iff [Std.LawfulEqCmp cmp] :
    mergePatch live patch = patch ↔ ∀ k ∈ live, k ∈ patch := by
  constructor
  · intro h k hk
    rw [← h, mergePatch]
    exact Std.ExtTreeMap.mem_union_iff.mpr (.inl hk)
  · intro h
    apply Std.ExtTreeMap.ext_getElem?
    intro k
    rw [getElem?_mergePatch]
    by_cases hk : k ∈ live
    · have hp : patch[k]?.isSome := Std.ExtTreeMap.mem_iff_isSome_getElem?.mp (h k hk)
      obtain ⟨v, hv⟩ := Option.isSome_iff_exists.mp hp
      rw [hv, Option.some_or]
    · rw [eq_none_of_not_mem hk, Option.or_none]

/-- A patch changes nothing exactly where all of it is already there. -/
theorem mergePatch_eq_live_iff [Std.LawfulEqCmp cmp] :
    mergePatch live patch = live ↔ Matches patch live := by
  constructor
  · intro h
    have hm := matches_mergePatch live patch
    rwa [h] at hm
  · intro h
    apply Std.ExtTreeMap.ext_getElem?
    intro k
    rw [getElem?_mergePatch]
    cases hp : patch[k]? with
    | none => rfl
    | some v => exact (h k v hp).symm

theorem mergePatch_mergePatch [Std.LawfulEqCmp cmp] :
    mergePatch (mergePatch live patch) patch = mergePatch live patch :=
  mergePatch_eq_live_iff.mpr (matches_mergePatch live patch)

/-- An apply replaces the live map exactly where every live key is in the manifest or was
in the one applied before. -/
theorem threeWay_eq_manifest_iff [Std.LawfulEqCmp cmp] :
    threeWay applied manifest live = manifest ↔ ∀ k ∈ live, k ∈ manifest ∨ k ∈ applied := by
  constructor
  · intro h k hk
    by_cases hm : k ∈ manifest
    · exact .inl hm
    by_cases ha : k ∈ applied
    · exact .inr ha
    obtain ⟨v, hv⟩ := Option.isSome_iff_exists.mp (Std.ExtTreeMap.mem_iff_isSome_getElem?.mp hk)
    have hkept : (threeWay applied manifest live)[k]? = some v := by
      have hna : applied.contains k = false := Bool.eq_false_iff.mpr ha
      rw [getElem?_threeWay, eq_none_of_not_mem hm, hv, hna]
      rfl
    rw [h, eq_none_of_not_mem hm] at hkept
    cases hkept
  · intro h
    apply Std.ExtTreeMap.ext_getElem?
    intro k
    rw [getElem?_threeWay]
    by_cases hk : k ∈ live
    · rcases h k hk with hm | ha
      · obtain ⟨v, hv⟩ := Option.isSome_iff_exists.mp
          (Std.ExtTreeMap.mem_iff_isSome_getElem?.mp hm)
        rw [hv, Option.some_or]
      · have hc : applied.contains k = true := ha
        rw [hc]
        cases manifest[k]? <;> cases live[k]? <;> rfl
    · rw [eq_none_of_not_mem hk]
      cases manifest[k]? <;> rfl

end MergeSemantics
