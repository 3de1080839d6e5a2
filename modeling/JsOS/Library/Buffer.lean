import Mathlib.Data.List.Basic

/-! # Buffers written in place

A program that fills a buffer of fixed size assigns its elements one after the other. A
buffer is described from the front: what stands before an offset, the window that is
written and what follows it. Writes inside the window concern the window alone
(`Buffer.store_window`), so that a sequence of them is evaluated on the window.
-/

namespace Buffer

variable {α : Type}

/-- Assign elements from an offset on. An assignment past the end has no effect. -/
def store (buffer : List α) (offset : Nat) : List α → List α
  | [] => buffer
  | element :: elements => store (buffer.set offset element) (offset + 1) elements

@[simp] theorem length_store (buffer : List α) (offset : Nat) (elements : List α) :
    (store buffer offset elements).length = buffer.length := by
  induction elements generalizing buffer offset with
  | nil => rfl
  | cons element elements ih => rw [store, ih, List.length_set]

/-- Writes behind a front leave the front. -/
theorem store_append_right (front buffer : List α) (offset : Nat) (elements : List α) :
    store (front ++ buffer) (front.length + offset) elements =
      front ++ store buffer offset elements := by
  induction elements generalizing buffer offset with
  | nil => rfl
  | cons element elements ih =>
      rw [store, store, List.set_append_right _ _ (Nat.le_add_right _ _), Nat.add_sub_cancel_left,
        Nat.add_assoc, ih]

/-- Writes that end before the back leave the back. -/
theorem store_append_left (buffer back : List α) (offset : Nat) (elements : List α)
    (inside : offset + elements.length ≤ buffer.length) :
    store (buffer ++ back) offset elements = store buffer offset elements ++ back := by
  induction elements generalizing buffer offset with
  | nil => rfl
  | cons element elements ih =>
      rw [List.length_cons] at inside
      rw [store, store, List.set_append_left _ _ (by omega), ih]
      rw [List.length_set]
      omega

/-- **Writes inside a window concern the window alone.** -/
theorem store_window (front window back : List α) (offset : Nat) (elements : List α)
    (inside : offset + elements.length ≤ window.length) :
    store (front ++ window ++ back) (front.length + offset) elements =
      front ++ store window offset elements ++ back := by
  rw [List.append_assoc, store_append_right, store_append_left _ _ _ _ inside,
    ← List.append_assoc]

/-- A window that is written from end to end holds what is written. -/
theorem store_whole (window elements : List α) (same : elements.length = window.length) :
    store window 0 elements = elements := by
  have shifted (done window elements : List α) (same : elements.length = window.length) :
      store (done ++ window) done.length elements = done ++ elements := by
    induction elements generalizing done window with
    | nil =>
        rw [List.length_nil] at same
        rw [List.length_eq_zero_iff.mp same.symm]
        rfl
    | cons element elements ih =>
        cases window with
        | nil => cases same
        | cons first window =>
            have next := ih (done ++ [element]) window (Nat.succ.inj same)
            rw [List.length_append, List.append_assoc, List.append_assoc] at next
            rw [store, List.set_append_right _ _ (Nat.le_refl _), Nat.sub_self]
            exact next
  exact shifted [] window elements same

/-- **The next elements of a buffer that is filled from the front.** -/
theorem store_fill {filled : List α} {offset room : ℕ} (blank : α) (elements : List α) (left : ℕ)
    (next : offset = filled.length) (fits : room = elements.length + left) :
    store (filled ++ List.replicate room blank) offset elements =
      filled ++ elements ++ List.replicate left blank := by
  rw [next, fits, ← List.replicate_append_replicate, ← List.append_assoc]
  have written := store_window filled (List.replicate elements.length blank)
    (List.replicate left blank) 0 elements (by rw [List.length_replicate]; omega)
  rwa [Nat.add_zero, store_whole _ _ (List.length_replicate).symm] at written

end Buffer
