import ScriptTree.Text.Bytes

/-! # Slices between boundaries

A boundary cuts a text in two, and the offset is the number of bytes before it. Slices between
boundaries that lie side by side join. -/
set_option autoImplicit false
namespace ScriptTree.Text

@[simp] theorem isBoundary_zero (text : List Char) : isBoundary 0 text = true := by
  simp [isBoundary]

theorem takeBytes_append_dropBytes (offset : Nat) (text : List Char) :
    takeBytes offset text ++ dropBytes offset text = text := by
  fun_induction takeBytes offset text with
  | case1 text => simp [dropBytes]
  | case2 offset => rfl
  | case3 offset char rest ih => rw [List.cons_append, dropBytes, ih]

theorem byteLength_takeBytes {offset : Nat} {text : List Char}
    (boundary : isBoundary offset text = true) :
    byteLength (takeBytes offset text) = offset := by
  fun_induction takeBytes offset text with
  | case1 text => rfl
  | case2 offset => cases boundary
  | case3 offset char rest ih =>
      simp only [isBoundary, Bool.and_eq_true, decide_eq_true_eq] at boundary
      rw [byteLength, ih boundary.2]
      omega

theorem takeBytes_byteLength (left right : List Char) :
    takeBytes (byteLength left) (left ++ right) = left := by
  induction left with
  | nil => simp [byteLength, takeBytes]
  | cons char rest ih =>
      obtain ⟨offset, same⟩ : ∃ offset, byteLength (char :: rest) = offset + 1 :=
        ⟨byteLength (char :: rest) - 1, by have := char.utf8Size_pos; simp only [byteLength]; omega⟩
      have remains : offset + 1 - char.utf8Size = byteLength rest := by
        rw [← same, byteLength]
        omega
      rw [same, List.cons_append, takeBytes, remains, ih]

theorem dropBytes_byteLength (left right : List Char) :
    dropBytes (byteLength left) (left ++ right) = right := by
  have whole := takeBytes_append_dropBytes (byteLength left) (left ++ right)
  rw [takeBytes_byteLength] at whole
  exact List.append_cancel_left whole

theorem isBoundary_byteLength (left right : List Char) :
    isBoundary (byteLength left) (left ++ right) = true := by
  induction left with
  | nil => simp [byteLength]
  | cons char rest ih =>
      obtain ⟨offset, same⟩ : ∃ offset, byteLength (char :: rest) = offset + 1 :=
        ⟨byteLength (char :: rest) - 1, by have := char.utf8Size_pos; simp only [byteLength]; omega⟩
      have remains : offset + 1 - char.utf8Size = byteLength rest := by
        rw [← same, byteLength]
        omega
      rw [same, List.cons_append, isBoundary, remains, ih, ← same, byteLength]
      simp

theorem exists_cut {offset : Nat} {text : List Char} (boundary : isBoundary offset text = true) :
    ∃ left right, text = left ++ right ∧ byteLength left = offset :=
  ⟨_, _, (takeBytes_append_dropBytes offset text).symm, byteLength_takeBytes boundary⟩

theorem slice_byteLength (left middle right : List Char) :
    slice (left ++ (middle ++ right)) (byteLength left) (byteLength left + byteLength middle) =
      middle := by
  rw [slice, dropBytes_byteLength, Nat.add_sub_cancel_left, takeBytes_byteLength]

theorem eq_nil_of_byteLength {text : List Char} (empty : byteLength text = 0) : text = [] := by
  cases text with
  | nil => rfl
  | cons char rest =>
      have size := char.utf8Size_pos
      simp only [byteLength] at empty
      omega

theorem exists_cut_between {first stop : Nat} {text : List Char}
    (firstBoundary : isBoundary first text = true) (stopBoundary : isBoundary stop text = true)
    (ordered : first ≤ stop) :
    ∃ left middle right, text = left ++ (middle ++ right) ∧ byteLength left = first ∧
      byteLength left + byteLength middle = stop := by
  obtain ⟨left, rest, rfl, rfl⟩ := exists_cut firstBoundary
  obtain ⟨longer, right, same, rfl⟩ := exists_cut stopBoundary
  rcases List.append_eq_append_iff.mp same with ⟨middle, rfl, rfl⟩ | ⟨beyond, rfl, rfl⟩
  · exact ⟨left, middle, right, rfl, rfl, (byteLength_append left middle).symm⟩
  · rw [byteLength_append] at ordered
    obtain rfl : beyond = [] := eq_nil_of_byteLength (by omega)
    exact ⟨longer, [], rest, by simp, by simp, by simp [byteLength]⟩

theorem slice_append_slice {first middle stop : Nat} {text : List Char}
    (firstBoundary : isBoundary first text = true) (middleBoundary : isBoundary middle text = true)
    (stopBoundary : isBoundary stop text = true) (before : first ≤ middle) (behind : middle ≤ stop) :
    slice text first middle ++ slice text middle stop = slice text first stop := by
  obtain ⟨left, one, rest, rfl, rfl, rfl⟩ := exists_cut_between firstBoundary middleBoundary before
  obtain ⟨longer, other, right, same, length, rfl⟩ :=
    exists_cut_between middleBoundary stopBoundary behind
  rw [← byteLength_append] at length
  have cut : longer = left ++ one := by
    rw [← takeBytes_byteLength longer (other ++ right), ← same, length, ← List.append_assoc,
      takeBytes_byteLength]
  subst cut
  have remains : rest = other ++ right := by
    rw [← List.append_assoc] at same
    exact List.append_cancel_left same
  subst remains
  rw [slice_byteLength]
  have second := slice_byteLength (left ++ one) other right
  have whole := slice_byteLength left (one ++ other) right
  rw [byteLength_append, List.append_assoc] at second
  rw [byteLength_append, List.append_assoc, ← Nat.add_assoc] at whole
  rw [byteLength_append, second, whole]

end ScriptTree.Text
