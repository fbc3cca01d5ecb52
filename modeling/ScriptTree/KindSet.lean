import ScriptTree.Kind

/-! # Sets of kinds

A set of kinds is four words of 64 bits, with one bit for each kind: the quotient of its number by
64 chooses the word and the remainder the bit. The lemmas say what each operation does to
membership, and that `toList` lists the members in order of declaration. -/
set_option autoImplicit false
namespace ScriptTree

structure KindSet where
  words : Vector (BitVec 64) 4
  deriving DecidableEq

namespace KindSet

def empty : KindSet := ⟨Vector.replicate 4 0⟩

instance : Inhabited KindSet := ⟨empty⟩

/-- The word that has the bit of a kind. -/
def slot (kind : Kind) : Fin 4 := ⟨kind.raw / 64, Nat.div_lt_of_lt_mul kind.raw_lt⟩

def mask (kind : Kind) : BitVec 64 := BitVec.twoPow 64 (kind.raw % 64)

def singleton (kind : Kind) : KindSet := ⟨empty.words.set (slot kind) (mask kind)⟩

def union (left right : KindSet) : KindSet := ⟨left.words.zipWith (· ||| ·) right.words⟩

def insert (set : KindSet) (kind : Kind) : KindSet := set.union (singleton kind)

def ofList (kinds : List Kind) : KindSet := kinds.foldl insert empty

def contains (set : KindSet) (kind : Kind) : Bool := set.words[slot kind] &&& mask kind != 0

def isEmpty (set : KindSet) : Bool := set.words.all (· == 0)

def size (set : KindSet) : Nat := set.words.foldl (fun total word => total + word.cpop.toNat) 0

/-- The kinds of numbers, up to the first number that is none of a kind. -/
def mapWhile (kind? : Nat → Option Kind) : List Nat → List Kind
  | [] => []
  | number :: rest =>
    match kind? number with
    | some kind => kind :: mapWhile kind? rest
    | none => []

/-- All kinds, found by counting through the numbers of one byte. -/
def listing : List Kind := mapWhile Kind.ofRaw? (List.range 256)

def toList (set : KindSet) : List Kind := listing.filter set.contains

def inspect (set : KindSet) : String :=
  "\x7b" ++ ", ".intercalate (set.toList.map Kind.name) ++ "\x7d"

/-! ## Bits

All words together, read as one row of bits: a kind has the bit of its number. -/

def bit (set : KindSet) (number : Nat) : Bool :=
  (set.words[number / 64]?.getD 0).getLsbD (number % 64)

theorem eq_of_bit {left right : KindSet} (same : ∀ number, left.bit number = right.bit number) :
    left = right := by
  obtain ⟨left⟩ := left
  obtain ⟨right⟩ := right
  rw [mk.injEq]
  ext word inside index low
  have here := same (64 * word + index)
  have quotient : (64 * word + index) / 64 = word := by omega
  have remainder : (64 * word + index) % 64 = index := by omega
  simpa [bit, quotient, remainder, inside, BitVec.getLsbD_eq_getElem low] using here

@[simp] theorem bit_empty (number : Nat) : empty.bit number = false := by
  by_cases inside : number / 64 < 4 <;> simp [bit, empty, inside]

@[simp] theorem bit_union (left right : KindSet) (number : Nat) :
    (left.union right).bit number = (left.bit number || right.bit number) := by
  by_cases inside : number / 64 < 4 <;> simp [bit, union, inside]

@[simp] theorem bit_singleton (kind : Kind) (number : Nat) :
    (singleton kind).bit number = decide (number = kind.raw) := by
  by_cases word : kind.raw / 64 = number / 64
  · have inside : number / 64 < 4 := word ▸ (slot kind).isLt
    have low : number % 64 = kind.raw % 64 ↔ number = kind.raw := by omega
    simp [bit, singleton, slot, mask, word, inside, Nat.mod_lt, low]
  · have apart : number ≠ kind.raw := by
      rintro rfl
      exact word rfl
    have untouched : (singleton kind).bit number = empty.bit number := by
      simp [bit, singleton, slot, Vector.getElem?_set_ne, word]
    rw [untouched, bit_empty, decide_eq_false apart]

/-! ## Membership -/

theorem mask_ne_zero (kind : Kind) : mask kind ≠ 0 := by
  intro zero
  have on := congrArg (fun word : BitVec 64 => word.getLsbD (kind.raw % 64)) zero
  simp [mask, Nat.mod_lt] at on

/-- Masking a word leaves something exactly when the bit is on. -/
theorem contains_eq_bit (set : KindSet) (kind : Kind) : set.contains kind = set.bit kind.raw := by
  have word : set.words[kind.raw / 64]? = some set.words[slot kind] :=
    Vector.getElem?_eq_getElem (slot kind).isLt
  rw [contains, bit, word, Option.getD_some, mask, BitVec.and_twoPow]
  cases set.words[slot kind].getLsbD (kind.raw % 64) with
  | true => simpa [mask] using mask_ne_zero kind
  | false => simp

@[simp] theorem contains_empty (kind : Kind) : empty.contains kind = false := by
  simp [contains_eq_bit]

@[simp] theorem contains_singleton (member kind : Kind) :
    (singleton member).contains kind = decide (kind = member) := by
  have number : kind.raw = member.raw ↔ kind = member :=
    ⟨Kind.raw_injective, congrArg Kind.raw⟩
  simp [contains_eq_bit, number]

@[simp] theorem contains_union (left right : KindSet) (kind : Kind) :
    (left.union right).contains kind = (left.contains kind || right.contains kind) := by
  simp [contains_eq_bit]

@[simp] theorem contains_insert (set : KindSet) (member kind : Kind) :
    (set.insert member).contains kind = (set.contains kind || decide (kind = member)) := by
  simp [insert]

theorem insert_of_contains {set : KindSet} {member : Kind} (known : set.contains member = true) :
    set.insert member = set := by
  refine eq_of_bit fun number => ?_
  rw [contains_eq_bit] at known
  simp only [insert, bit_union, bit_singleton, Bool.or_eq_left_iff_imp, decide_eq_true_eq]
  rintro rfl
  exact known

/-! ## Listing -/

/-- Numbers that count through the kinds list them, as far as they go. -/
theorem mapWhile_range' (start count : Nat) :
    mapWhile Kind.ofRaw? (List.range' start count) = (Kind.all.drop start).take count := by
  induction count generalizing start with
  | zero => simp [mapWhile]
  | succ count rest =>
    rw [List.range'_succ, mapWhile]
    cases found : Kind.ofRaw? start with
    | none =>
      have past : Kind.all.length ≤ start := List.getElem?_eq_none_iff.mp found
      simp [List.drop_of_length_le past]
    | some kind =>
      obtain ⟨inside, rfl⟩ := List.getElem?_eq_some_iff.mp found
      rw [rest, List.drop_eq_getElem_cons inside, List.take_succ_cons]

theorem listing_eq_all : listing = Kind.all := by
  rw [listing, List.range_eq_range', mapWhile_range', List.drop_zero]
  exact List.take_of_length_le (by decide +kernel)

@[simp] theorem mem_toList (set : KindSet) (kind : Kind) :
    kind ∈ set.toList ↔ set.contains kind = true := by
  simp [toList, listing_eq_all, Kind.mem_all]

end KindSet
end ScriptTree
