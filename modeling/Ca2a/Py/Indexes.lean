/-
Changing a list at given positions: the assignment and the deletion of an
item, which raise off the end, and the positions of the items with a
property. Deleting at those positions from the last to the first leaves the
items without it (`delItems_indexesFrom`).
-/
import Ca2a.Py.Text
import Ca2a.Py.Except

namespace Py

variable {ε α : Type}

/-- `xs[i] = a` -/
def setItem (xs : List α) (i : Nat) (a : α) : Except (Raised ε) (List α) :=
  if i < xs.length then .ok (xs.set i a)
  else .error (.builtin .indexError (lit "list assignment index out of range"))

/-- `del xs[i]` -/
def delItem (xs : List α) (i : Nat) : Except (Raised ε) (List α) :=
  if i < xs.length then .ok (xs.eraseIdx i)
  else .error (.builtin .indexError (lit "list assignment index out of range"))

/-- `for i in indexes: del xs[i]` -/
def delItems (xs : List α) : (indexes : List Nat) → Except (Raised ε) (List α)
  | [] => .ok xs
  | i :: indexes => do
    let xs ← delItem xs i
    delItems xs indexes

/-- `[i for i, x in enumerate(xs, start) if p(x)]` -/
def indexesFrom (p : α → Bool) (start : Nat) : List α → List Nat
  | [] => []
  | x :: xs => if p x then start :: indexesFrom p (start + 1) xs else indexesFrom p (start + 1) xs

theorem delItems_append (xs : List α) (is js : List Nat) :
    delItems (ε := ε) xs (is ++ js) = delItems xs is >>= fun xs => delItems xs js := by
  induction is generalizing xs with
  | nil => rfl
  | cons i is ih =>
    rw [List.cons_append, delItems, delItems]
    cases delItem (ε := ε) xs i with
    | error e => rfl
    | ok ys => exact ih ys

theorem delItem_split (pre suf : List α) (x : α) : delItem (ε := ε) (pre ++ x :: suf) pre.length = .ok (pre ++ suf) := by
  rw [delItem, if_pos (by simp), List.eraseIdx_append_of_length_le (Nat.le_refl _)]
  simp

/-- **Deletion from the back.** -/
theorem delItems_indexesFrom (p : α → Bool) (pre xs : List α) :
    delItems (ε := ε) (pre ++ xs) (indexesFrom p pre.length xs).reverse = .ok (pre ++ xs.filter fun x => !p x) := by
  induction xs generalizing pre with
  | nil => rfl
  | cons x xs ih =>
    have hrest := ih (pre ++ [x])
    rw [List.append_assoc, List.singleton_append, List.length_append, List.length_singleton] at hrest
    rw [indexesFrom]
    split
    · rename_i hp
      rw [List.reverse_cons, delItems_append, hrest, ok_bind, delItems, List.append_assoc, List.singleton_append,
        delItem_split, ok_bind, List.filter_cons_of_neg (by simp [hp])]
      rfl
    · rename_i hp
      rw [hrest, List.filter_cons_of_pos (by simp [hp]), List.append_assoc]
      rfl

/-- The items before the first with the property, if there is one, and the items from it on. -/
theorem indexesFrom_eq (p : α → Bool) (start : Nat) (xs : List α) :
    indexesFrom p start xs =
      match xs.dropWhile fun x => !p x with
      | [] => []
      | _ :: later =>
        (start + (xs.takeWhile fun x => !p x).length) ::
          indexesFrom p (start + (xs.takeWhile fun x => !p x).length + 1) later := by
  induction xs generalizing start with
  | nil => rfl
  | cons x xs ih =>
    rw [indexesFrom]
    split
    · rename_i hp
      rw [List.dropWhile_cons_of_neg (by simp [hp]), List.takeWhile_cons_of_neg (by simp [hp])]
      rfl
    · rename_i hp
      rw [ih, List.dropWhile_cons_of_pos (by simp [hp]), List.takeWhile_cons_of_pos (by simp [hp]), List.length_cons]
      simp only [Nat.add_assoc, Nat.add_comm 1]

end Py
