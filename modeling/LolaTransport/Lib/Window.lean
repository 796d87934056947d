import Mathlib.Algebra.Ring.Nat
import Mathlib.Data.List.DropRight
import Mathlib.Data.List.Perm.Basic
import Mathlib.Tactic.Common

/-!
# Windows onto a list, and lists with one entry replaced

The last `c` elements of what has been pushed so far do not depend on the elements pushed out
before: pushing `ys` onto the last `c` of `xs` leaves the last `c` of `xs ++ ys`.

Replacing one entry of a list changes what the entries contribute to a total by what that entry
contributes (`count_flatMap_set`, `sum_map_set`); what the other entries contribute to a list stays
(`filterMap_set_perm`), and so does their place around it (`flatMap_split`).
-/

namespace List

variable {α β : Type*}

theorem rtake_rtake_append (c : ℕ) (xs ys : List α) :
    (xs.rtake c ++ ys).rtake c = (xs ++ ys).rtake c := by
  have hle : xs.length - c ≤ xs.length := Nat.sub_le _ _
  simp only [rtake]
  rw [← drop_append_of_le_length hle, drop_drop, length_drop, length_append]
  congr 1
  omega

theorem length_rtake (c : ℕ) (xs : List α) : (xs.rtake c).length = min c xs.length := by
  simp only [rtake, length_drop]
  omega

theorem rtake_of_length_le {c : ℕ} {xs : List α} (h : xs.length ≤ c) : xs.rtake c = xs := by
  rw [rtake, Nat.sub_eq_zero_of_le h, drop_zero]

theorem getElem?_concat_eq_some {xs : List α} {x y : α} {i : ℕ}
    (h : (xs ++ [x])[i]? = some y) : xs[i]? = some y ∨ i = xs.length ∧ y = x := by
  rw [getElem?_append] at h
  split_ifs at h with hi
  · exact .inl h
  · rw [getElem?_singleton] at h
    split_ifs at h with hzero
    exact .inr ⟨by omega, (Option.some.inj h).symm⟩

theorem getElem?_set_of_some {xs : List α} {i : ℕ} {x : α} (h : xs[i]? = some x) (y : α) (k : ℕ) :
    (xs.set i y)[k]? = if k = i then some y else xs[k]? := by
  obtain ⟨hi, -⟩ := getElem?_eq_some_iff.1 h
  split_ifs with hk
  · rw [hk, getElem?_set_self hi]
  · exact getElem?_set_ne (Ne.symm hk)

theorem count_flatMap_set [BEq β] {xs : List α} {i : ℕ} {x : α} (h : xs[i]? = some x)
    (y : α) (f : α → List β) (b : β) :
    ((xs.set i y).flatMap f).count b + (f x).count b =
      (xs.flatMap f).count b + (f y).count b := by
  obtain ⟨hi, rfl⟩ := getElem?_eq_some_iff.1 h
  have hset := (set_perm_cons_eraseIdx hi y).flatMap_right f
  have hself := (getElem_cons_eraseIdx_perm hi).flatMap_right f
  rw [hset.count_eq, ← hself.count_eq, flatMap_cons, flatMap_cons, count_append, count_append]
  omega

theorem sum_map_set {xs : List α} {i : ℕ} {x : α} (h : xs[i]? = some x) (y : α) (f : α → ℕ) :
    ((xs.set i y).map f).sum + f x = (xs.map f).sum + f y := by
  obtain ⟨hi, rfl⟩ := getElem?_eq_some_iff.1 h
  have hset := ((set_perm_cons_eraseIdx hi y).map f).sum_nat
  have hself := ((getElem_cons_eraseIdx_perm hi).map f).sum_nat
  rw [hset, ← hself, map_cons, map_cons, sum_cons, sum_cons]
  omega

theorem eq_of_nodup_filterMap {f : α → Option β} {b : β} : ∀ {xs : List α}
    (_ : (xs.filterMap f).Nodup) {x y : α} (_ : x ∈ xs) (_ : y ∈ xs) (_ : f x = some b)
    (_ : f y = some b), x = y
  | a :: xs, h, x, y, hx, hy, hfx, hfy => by
    have hrest : (xs.filterMap f).Nodup := h.sublist ((sublist_cons_self a xs).filterMap f)
    have hhead {z : α} (hz : z ∈ xs) (hfz : f z = some b) (hfa : f a = some b) : False := by
      rw [filterMap_cons_some hfa] at h
      exact (nodup_cons.1 h).1 (mem_filterMap.2 ⟨z, hz, hfz⟩)
    rcases mem_cons.1 hx with rfl | hxs
    · rcases mem_cons.1 hy with rfl | hys
      · rfl
      · exact (hhead hys hfy hfx).elim
    · rcases mem_cons.1 hy with rfl | hys
      · exact (hhead hxs hfx hfy).elim
      · exact eq_of_nodup_filterMap hrest hxs hys hfx hfy

theorem mem_set_of_ne {xs : List α} {i : ℕ} {x y z : α} (hi : xs[i]? = some x) (hy : y ∈ xs)
    (hne : y ≠ x) : y ∈ xs.set i z := by
  obtain ⟨j, hj⟩ := mem_iff_getElem?.1 hy
  refine mem_iff_getElem?.2 ⟨j, ?_⟩
  rw [getElem?_set_ne]
  · exact hj
  · rintro rfl
    exact hne (Option.some.inj (hj.symm.trans hi))

theorem Subperm.filterMap (f : α → Option β) {xs ys : List α} (h : xs.Subperm ys) :
    (xs.filterMap f).Subperm (ys.filterMap f) := by
  obtain ⟨l, hperm, hsub⟩ := h
  exact ⟨l.filterMap f, hperm.filterMap f, hsub.filterMap f⟩

theorem filterMap_perm {xs : List α} {i : ℕ} {x : α} (h : xs[i]? = some x) (f : α → Option β) :
    (xs.filterMap f).Perm ((f x).toList ++ (xs.eraseIdx i).filterMap f) := by
  obtain ⟨hi, rfl⟩ := getElem?_eq_some_iff.1 h
  have hself := ((getElem_cons_eraseIdx_perm hi).filterMap f).symm
  rw [filterMap_cons] at hself
  cases hf : f xs[i] with
  | none => rwa [hf] at hself
  | some b => rwa [hf] at hself

theorem filterMap_set_perm {xs : List α} {i : ℕ} {x : α} (h : xs[i]? = some x) (y : α)
    (f : α → Option β) :
    ((xs.set i y).filterMap f).Perm ((f y).toList ++ (xs.eraseIdx i).filterMap f) := by
  have hset : (xs.set i y)[i]? = some y := by rw [getElem?_set_of_some h, if_pos rfl]
  have hperm := filterMap_perm hset f
  rwa [eraseIdx_set_eq] at hperm

/-- What one entry contributes lies between what those before it and those behind it do. -/
theorem flatMap_split {xs : List α} {i : ℕ} {x : α} (h : xs[i]? = some x) (f : α → List β) :
    ∃ front back, xs.flatMap f = front ++ f x ++ back ∧
      (∀ y, (xs.set i y).flatMap f = front ++ f y ++ back) ∧
      ∀ b ∈ front ++ back, ∃ j z, j ≠ i ∧ xs[j]? = some z ∧ b ∈ f z := by
  obtain ⟨hlt, rfl⟩ := getElem?_eq_some_iff.1 h
  refine ⟨(xs.take i).flatMap f, (xs.drop (i + 1)).flatMap f, ?_, fun y => ?_, fun b hb => ?_⟩
  · conv_lhs => rw [← take_append_drop i xs, drop_eq_getElem_cons hlt]
    rw [flatMap_append, flatMap_cons, append_assoc]
  · rw [set_eq_take_append_cons_drop, if_pos hlt, flatMap_append, flatMap_cons, append_assoc]
  · rcases mem_append.1 hb with hb | hb
    · obtain ⟨z, hz, hb⟩ := mem_flatMap.1 hb
      obtain ⟨j, hj⟩ := mem_iff_getElem?.1 hz
      rw [getElem?_take] at hj
      split_ifs at hj with hji
      exact ⟨j, z, by omega, hj, hb⟩
    · obtain ⟨z, hz, hb⟩ := mem_flatMap.1 hb
      obtain ⟨j, hj⟩ := mem_iff_getElem?.1 hz
      rw [getElem?_drop] at hj
      exact ⟨i + 1 + j, z, by omega, hj, hb⟩

end List
