import Mathlib

/-! # Computations that may fail

What is known when a computation made of several has a value, and when two computations made of the
same parts end alike.
-/

namespace AudioFeatures

variable {ε α β γ : Type}

/-- A computation that goes on after another has a value exactly if both have. -/
theorem bind_eq_ok_iff {x : Except ε α} {g : α → Except ε β} {y : β} :
    x >>= g = .ok y ↔ ∃ z, x = .ok z ∧ g z = .ok y := by
  cases x with
  | error e => exact ⟨nofun, nofun⟩
  | ok z => simp [bind, Except.bind]

theorem ok_bind (a : α) (g : α → Except ε β) : Except.ok a >>= g = g a := rfl

theorem map_eq_ok_iff {x : Except ε α} {g : α → β} {y : β} :
    x.map g = .ok y ↔ ∃ z, x = .ok z ∧ g z = y := by
  cases x with
  | error e => exact ⟨nofun, nofun⟩
  | ok z => simp [Except.map]

theorem toOption_eq_some_iff {x : Except ε α} {a : α} : x.toOption = some a ↔ x = .ok a := by
  cases x <;> simp [Except.toOption]

/-- A computation over the indices of a list that finds each element at its index finds the list. -/
theorem mapM_range_eq_ok {f : Nat → Except ε α} {xs : List α}
    (h : ∀ i (hi : i < xs.length), f i = .ok xs[i]) : (List.range xs.length).mapM f = .ok xs := by
  induction xs using List.reverseRecOn with
  | nil => rfl
  | append_singleton xs x ih =>
    have hlast : f xs.length = .ok x := by
      rw [h xs.length (by simp)]
      simp
    have hinit : (List.range xs.length).mapM f = .ok xs := by
      refine ih fun i hi => ?_
      rw [h i (by simp; omega), List.getElem_append_left hi]
    rw [List.length_append, List.length_singleton, List.range_succ, List.mapM_append, hinit]
    simp [hlast, bind, Except.bind, pure, Except.pure]

theorem forall₂_of_mapM {f : α → Except ε β} {xs : List α} {ys : List β}
    (h : xs.mapM f = .ok ys) : List.Forall₂ (fun x y => f x = .ok y) xs ys := by
  induction xs generalizing ys with
  | nil =>
    cases h
    exact .nil
  | cons x xs ih =>
    rw [List.mapM_cons, bind_eq_ok_iff] at h
    obtain ⟨y, hy, h⟩ := h
    obtain ⟨zs, hzs, h⟩ := bind_eq_ok_iff.1 h
    cases h
    exact .cons hy (ih hzs)

theorem mapM_eq_ok_iff {f : α → Except ε β} {xs : List α} {ys : List β} :
    xs.mapM f = .ok ys ↔ List.Forall₂ (fun x y => f x = .ok y) xs ys := by
  refine ⟨forall₂_of_mapM, fun h => ?_⟩
  induction h with
  | nil => rfl
  | cons hxy _ ih =>
    rw [List.mapM_cons]
    exact bind_eq_ok_iff.2 ⟨_, hxy, bind_eq_ok_iff.2 ⟨_, ih, rfl⟩⟩

theorem mapM_congr_forall₂ {f : α → Except ε γ} {g : β → Except ε γ} {xs : List α} {ys : List β}
    (h : List.Forall₂ (fun x y => f x = g y) xs ys) : xs.mapM f = ys.mapM g := by
  induction h with
  | nil => rfl
  | cons hxy _ ih => rw [List.mapM_cons, List.mapM_cons, hxy, ih]

theorem map_eq_map_of_forall₂ {f : α → γ} {g : β → γ} {xs : List α} {ys : List β}
    (h : List.Forall₂ (fun x y => f x = g y) xs ys) : xs.map f = ys.map g := by
  rwa [← List.forall₂_eq_eq_eq, List.forall₂_map_left_iff, List.forall₂_map_right_iff]

theorem exists_of_mapM_eq_error {f : α → Except ε β} {xs : List α} {e : ε}
    (h : xs.mapM f = .error e) : ∃ x ∈ xs, f x = .error e := by
  induction xs with
  | nil => cases h
  | cons x xs ih =>
    rw [List.mapM_cons] at h
    cases hx : f x with
    | error e' =>
      rw [hx] at h
      cases h
      exact ⟨x, List.mem_cons_self, hx⟩
    | ok y =>
      rw [hx] at h
      cases hxs : xs.mapM f with
      | error e' =>
        rw [hxs] at h
        cases h
        obtain ⟨x, hmem, hx⟩ := ih hxs
        exact ⟨x, List.mem_cons_of_mem _ hmem, hx⟩
      | ok ys =>
        rw [hxs] at h
        cases h

theorem exists_of_mem_forall₂ {R : α → β → Prop} {xs : List α} {ys : List β} {y : β}
    (h : List.Forall₂ R xs ys) (hy : y ∈ ys) : ∃ x ∈ xs, R x y := by
  induction h with
  | nil => cases hy
  | cons hr _ ih =>
    rcases List.mem_cons.1 hy with rfl | hy
    · exact ⟨_, List.mem_cons_self, hr⟩
    · obtain ⟨x, hx, hr⟩ := ih hy
      exact ⟨x, List.mem_cons_of_mem _ hx, hr⟩

/-- A computation over a list fails where it fails for one of the elements. -/
theorem mapM_eq_error_of_mem {f : α → Except ε β} {xs : List α} {x : α} {e : ε} (hx : x ∈ xs)
    (h : f x = .error e) : ∃ e', xs.mapM f = .error e' := by
  cases hxs : xs.mapM f with
  | error e' => exact ⟨e', rfl⟩
  | ok ys =>
    obtain ⟨y, -, hy⟩ := exists_of_mem_forall₂ (forall₂_of_mapM hxs).flip hx
    cases h.symm.trans hy

theorem exists_mapM_eq_ok {f : α → Except ε β} {R : α → β → Prop} {xs : List α}
    (h : ∀ x ∈ xs, ∃ y, f x = .ok y ∧ R x y) :
    ∃ ys, xs.mapM f = .ok ys ∧ List.Forall₂ R xs ys := by
  induction xs with
  | nil => exact ⟨[], rfl, .nil⟩
  | cons x xs ih =>
    obtain ⟨hx, hxs⟩ := List.forall_mem_cons.1 h
    obtain ⟨y, hy, hr⟩ := hx
    obtain ⟨ys, hys, hrs⟩ := ih hxs
    refine ⟨y :: ys, ?_, .cons hr hrs⟩
    rw [List.mapM_cons, hy, hys]
    rfl

/-- A computation over a list fails as it does for the first of the elements for which it fails. -/
theorem mapM_append_eq_error {f : α → Except ε β} {before after : List α} {x : α} {e : ε}
    (hbefore : ∀ y ∈ before, ∃ z, f y = .ok z) (h : f x = .error e) :
    (before ++ x :: after).mapM f = .error e := by
  obtain ⟨zs, hzs, -⟩ := exists_mapM_eq_ok fun y hy => (hbefore y hy).imp fun _ hz => ⟨hz, trivial⟩
  rw [List.mapM_append, hzs, List.mapM_cons, h]
  rfl

/-- Lists that correspond to a third one correspond to each other through its elements. -/
theorem forall₂_comp {R : α → β → Prop} {S : β → γ → Prop} {xs : List α} {ys : List β}
    {zs : List γ} (h : List.Forall₂ R xs ys) (h' : List.Forall₂ S ys zs) :
    List.Forall₂ (fun x z => ∃ y, R x y ∧ S y z) xs zs := by
  induction h generalizing zs with
  | nil =>
    cases h'
    exact .nil
  | cons hr _ ih =>
    cases h' with
    | cons hs h' => exact .cons ⟨_, hr, hs⟩ (ih h')

/-! ## Computations that end alike -/

/-- The second computation ends as the first does, unless the first fails for a certain reason. -/
def AgreesUnless (p : ε → Prop) (x y : Except ε α) : Prop := y = x ∨ ∃ e, p e ∧ x = .error e

namespace AgreesUnless

variable {p : ε → Prop} {x y : Except ε α} {g k : α → Except ε β}

theorem refl (x : Except ε α) : AgreesUnless p x x := .inl rfl

theorem error {e : ε} (h : p e) (y : Except ε α) : AgreesUnless p (.error e) y :=
  .inr ⟨e, h, rfl⟩

theorem bind (h : AgreesUnless p x y) (hg : ∀ a, AgreesUnless p (g a) (k a)) :
    AgreesUnless p (x >>= g) (y >>= k) := by
  obtain rfl | ⟨e, he, rfl⟩ := h
  · cases y with
    | error e => exact refl _
    | ok a => exact hg a
  · exact error he _

theorem map (h : AgreesUnless p x y) (f : α → β) : AgreesUnless p (x.map f) (y.map f) := by
  obtain rfl | ⟨e, he, rfl⟩ := h
  · exact refl _
  · exact error he _

theorem mapError {ε' : Type} {q : ε' → Prop} {f : ε → ε'} (h : AgreesUnless p x y)
    (hf : ∀ e, p e → q (f e)) : AgreesUnless q (x.mapError f) (y.mapError f) := by
  obtain rfl | ⟨e, he, rfl⟩ := h
  · exact refl _
  · exact error (hf e he) _

theorem eq_ok (h : AgreesUnless p x y) {a : α} (hx : x = .ok a) : y = .ok a := by
  obtain rfl | ⟨e, -, rfl⟩ := h
  · exact hx
  · cases hx

theorem eq_error (h : AgreesUnless p x y) {e : ε} (hx : x = .error e) (he : ¬p e) :
    y = .error e := by
  obtain rfl | ⟨e', he', rfl⟩ := h
  · exact hx
  · cases hx
    exact absurd he' he

end AgreesUnless

end AudioFeatures
