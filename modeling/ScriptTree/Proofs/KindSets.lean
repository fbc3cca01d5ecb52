import Mathlib.Data.Finset.Card
import Mathlib.Data.List.Dedup
import ScriptTree.KindSet

/-! # Sets of kinds are finite sets

A recipe says how a set of kinds is put together, and which kinds went into it. The set that is
built has the bits of these kinds and no others, so it is determined by its members: they are
listed once each in order of declaration, counted rightly word by word, and two recipes build one
set exactly when the same kinds went into both. -/
set_option autoImplicit false
namespace ScriptTree.KindSet

/-! ## Counting bits word by word -/

theorem cpopNatRec_eq_countP (word : BitVec 64) (width : Nat) :
    word.cpopNatRec width 0 = (List.range width).countP word.getLsbD := by
  induction width with
  | zero => rfl
  | succ width narrower =>
    rw [BitVec.cpopNatRec_succ, BitVec.cpopNatRec_add, narrower, List.range_succ,
      List.countP_append, List.countP_singleton]
    cases word.getLsbD width <;> rfl

/-- The bits of one word, by their numbers in the whole row. -/
theorem cpop_eq_countP (set : KindSet) (word : Fin 4) :
    set.words[word].cpop.toNat = (List.range' (64 * word) 64).countP set.bit := by
  rw [BitVec.toNat_cpop, cpopNatRec_eq_countP, List.range'_eq_map_range, List.countP_map]
  refine List.countP_congr fun number inside => ?_
  have low : number < 64 := List.mem_range.mp inside
  have quotient : (64 * word.val + number) / 64 = word := by omega
  have remainder : (64 * word.val + number) % 64 = number := by omega
  simp [bit, quotient, remainder]

theorem size_eq_countP (set : KindSet) : set.size = (List.range 256).countP set.bit := by
  have row : set.words.toList = (List.finRange 4).map fun word => set.words[word] := by
    refine List.ext_getElem (by simp) fun index inside _ => ?_
    simp
  have split : List.range 256 =
      (List.finRange 4).flatMap fun word => List.range' (64 * word) 64 := by
    decide +kernel
  have sum : set.size = (set.words.toList.map fun word => word.cpop.toNat).sum := by
    rw [size, ← Vector.foldl_toList, List.sum_eq_foldl, List.foldl_map]
  rw [sum, row, List.map_map, split, List.countP_flatMap]
  exact congrArg List.sum (List.map_congr_left fun word _ => cpop_eq_countP set word)

/-! ## Bits of kinds -/

def IsProper (set : KindSet) : Prop :=
  ∀ number, set.bit number = true → ∃ kind : Kind, kind.raw = number

theorem isProper_empty : IsProper empty := by simp [IsProper]

theorem IsProper.union {left right : KindSet} (leftProper : left.IsProper)
    (rightProper : right.IsProper) : (left.union right).IsProper := by
  intro number on
  rw [bit_union, Bool.or_eq_true] at on
  exact on.elim (leftProper number) (rightProper number)

theorem IsProper.insert {set : KindSet} (proper : set.IsProper) (kind : Kind) :
    (set.insert kind).IsProper := by
  refine proper.union fun number on => ?_
  rw [bit_singleton, decide_eq_true_eq] at on
  exact ⟨kind, on.symm⟩

theorem IsProper.eq_of_contains {left right : KindSet} (leftProper : left.IsProper)
    (rightProper : right.IsProper)
    (same : ∀ kind, left.contains kind = true ↔ right.contains kind = true) : left = right := by
  simp only [contains_eq_bit] at same
  refine eq_of_bit fun number => Bool.eq_iff_iff.mpr ⟨fun on => ?_, fun on => ?_⟩
  · obtain ⟨kind, rfl⟩ := leftProper number on
    exact (same kind).mp on
  · obtain ⟨kind, rfl⟩ := rightProper number on
    exact (same kind).mpr on

theorem isEmpty_iff (set : KindSet) : set.isEmpty = true ↔ set = empty := by
  rw [isEmpty, Vector.all_eq_true]
  constructor
  · intro zero
    obtain ⟨words⟩ := set
    rw [empty, mk.injEq]
    ext1 word inside
    simpa using zero word inside
  · rintro rfl word inside
    simp [empty]

/-! ## Members in order -/

theorem map_raw_all : Kind.all.map Kind.raw = List.range Kind.all.length := by
  decide +kernel

/-- Beyond the numbers of kinds no bit is on, so the bits that are on are as many as the members. -/
theorem IsProper.size_eq {set : KindSet} (proper : set.IsProper) :
    set.size = set.toList.length := by
  have kinds : (List.range Kind.all.length).countP set.bit = set.toList.length := by
    rw [← map_raw_all, List.countP_map, toList, listing_eq_all, ← List.countP_eq_length_filter]
    exact List.countP_congr fun kind _ => by rw [contains_eq_bit, Function.comp_apply]
  have beyond : (List.range' Kind.all.length (256 - Kind.all.length)).countP set.bit = 0 := by
    refine List.countP_eq_zero.mpr fun number inside on => ?_
    obtain ⟨kind, rfl⟩ := proper number on
    have numbered : kind.raw < Kind.all.length :=
      (List.getElem?_eq_some_iff.mp (Kind.ofRaw?_raw kind)).1
    exact absurd (List.mem_range'_1.mp inside).1 (Nat.not_le.mpr numbered)
  have split : List.range 256 =
      List.range Kind.all.length ++ List.range' Kind.all.length (256 - Kind.all.length) := by
    decide +kernel
  rw [size_eq_countP, split, List.countP_append, kinds, beyond, Nat.add_zero]

theorem pairwise_toList (set : KindSet) :
    set.toList.Pairwise fun earlier later => earlier.raw < later.raw := by
  rw [toList, listing_eq_all]
  refine List.Pairwise.filter _ (List.pairwise_map.mp ?_)
  rw [map_raw_all]
  exact List.pairwise_lt_range

theorem nodup_toList (set : KindSet) : set.toList.Nodup :=
  (pairwise_toList set).imp fun before same => absurd (congrArg Kind.raw same) before.ne

/-! ## Recipes -/

/-- A way to put a set together: from nothing, from a list of kinds, by one more kind or from two
sets. -/
inductive Recipe where
  | empty
  | ofList (kinds : List Kind)
  | insert (earlier : Recipe) (kind : Kind)
  | union (left right : Recipe)

namespace Recipe

def build : Recipe → KindSet
  | .empty => KindSet.empty
  | .ofList kinds => KindSet.ofList kinds
  | .insert earlier kind => earlier.build.insert kind
  | .union left right => left.build.union right.build

/-- The kinds put in, with every repetition. -/
def kinds : Recipe → List Kind
  | .empty => []
  | .ofList kinds => kinds
  | .insert earlier kind => earlier.kinds ++ [kind]
  | .union left right => left.kinds ++ right.kinds

end Recipe

theorem IsProper.foldl_insert {set : KindSet} (proper : set.IsProper) (kinds : List Kind) :
    (kinds.foldl KindSet.insert set).IsProper := by
  induction kinds generalizing set with
  | nil => exact proper
  | cons kind rest restProper => exact restProper (proper.insert kind)

theorem contains_foldl_insert (set : KindSet) (kinds : List Kind) (kind : Kind) :
    (kinds.foldl insert set).contains kind = true ↔ set.contains kind = true ∨ kind ∈ kinds := by
  induction kinds generalizing set with
  | nil => simp
  | cons first rest restContains =>
    rw [List.foldl_cons, restContains, contains_insert, List.mem_cons, Bool.or_eq_true,
      decide_eq_true_eq, or_assoc]

theorem Recipe.isProper_build (recipe : Recipe) : recipe.build.IsProper := by
  induction recipe with
  | empty => exact isProper_empty
  | ofList kinds => exact isProper_empty.foldl_insert kinds
  | insert earlier kind earlierProper => exact earlierProper.insert kind
  | union left right leftProper rightProper => exact leftProper.union rightProper

theorem Recipe.contains_build (recipe : Recipe) (kind : Kind) :
    recipe.build.contains kind = true ↔ kind ∈ recipe.kinds := by
  induction recipe with
  | empty => simp [build, kinds]
  | ofList given => simp [build, kinds, KindSet.ofList, contains_foldl_insert]
  | insert earlier member earlierContains => simp [build, kinds, earlierContains]
  | union left right leftContains rightContains =>
    simp [build, kinds, leftContains, rightContains]

theorem Recipe.build_eq_iff (left right : Recipe) :
    left.build = right.build ↔ ∀ kind, kind ∈ left.kinds ↔ kind ∈ right.kinds := by
  simp only [← contains_build]
  constructor
  · intro same kind
    rw [same]
  · exact left.isProper_build.eq_of_contains right.isProper_build

/-- Listed without repetition, the members are as many as the different kinds put in. -/
theorem Recipe.length_toList (recipe : Recipe) :
    recipe.build.toList.length = recipe.kinds.toFinset.card := by
  have members : recipe.build.toList.toFinset = recipe.kinds.toFinset := by
    ext kind
    simp [contains_build]
  rw [← members, List.toFinset_card_of_nodup (nodup_toList _)]

/-- A set that was put together is the finite set of the kinds put in: it contains these, lists
these once each in order of declaration, counts them, is empty when there are none, and equals
another set exactly when the same kinds were put into that one. -/
theorem Recipe.build_is_finite_set (recipe : Recipe) :
    (∀ kind, recipe.build.contains kind = true ↔ kind ∈ recipe.kinds) ∧
      (∀ kind, kind ∈ recipe.build.toList ↔ kind ∈ recipe.kinds) ∧
      recipe.build.toList.Nodup ∧
      recipe.build.toList.Pairwise (fun earlier later => earlier.raw < later.raw) ∧
      recipe.build.size = recipe.kinds.toFinset.card ∧
      (recipe.build.isEmpty = true ↔ recipe.kinds = []) ∧
      ∀ other : Recipe,
        recipe.build = other.build ↔ ∀ kind, kind ∈ recipe.kinds ↔ kind ∈ other.kinds := by
  refine ⟨recipe.contains_build, fun kind => ?_, nodup_toList _, pairwise_toList _, ?_, ?_,
    recipe.build_eq_iff⟩
  · rw [mem_toList, contains_build]
  · rw [recipe.isProper_build.size_eq, length_toList]
  · have nothing : recipe.build = Recipe.empty.build ↔ recipe.kinds = [] := by
      simp [build_eq_iff, kinds, List.eq_nil_iff_forall_not_mem]
    rw [isEmpty_iff]
    exact nothing

/-- Order and repetition do not matter, here around the end of the first word. -/
example : KindSet.ofList [.debuggerKw, .defaultKw, .debuggerKw] =
    (KindSet.empty.insert .defaultKw).union (KindSet.empty.insert .debuggerKw) := by
  decide +kernel

end ScriptTree.KindSet
