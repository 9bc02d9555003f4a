import Mathlib.Data.List.Basic
import Mathlib.Logic.Function.Basic

/-!
# Loops that can raise

A `for` loop whose body can raise is a `List.foldlM` in `Except`.  What its result is said
to be is said of the state and of the items that are still to come.  A loop that adds each item
to the accumulator of its key is as many independent loops (`foldlM_accumulate_eq_ok`).  A loop
that makes a list is a `List.mapM`; what holds of its results is what holds of its items.
-/

namespace EveBuild

theorem mapError_eq_ok {ε η α : Type*} {f : ε → η} {x : Except ε α} {a : α} :
    x.mapError f = .ok a ↔ x = .ok a := by
  cases x <;> simp [Except.mapError]

theorem bind_eq_ok {ε : Type*} {α β : Type _} {x : Except ε α} {f : α → Except ε β} {b : β} :
    x >>= f = .ok b ↔ ∃ a, x = .ok a ∧ f a = .ok b := by
  cases x with
  | error e => simp [bind, Except.bind]
  | ok a => simp [bind, Except.bind]

/-- Where a loop can stop: at its first item, or later. -/
theorem exists_split_cons_iff {α : Type*} {P : List α → α → Prop} {first : α} {rest : List α} :
    (∃ before item after, first :: rest = before ++ item :: after ∧ P before item) ↔
      P [] first ∨
        ∃ before item after, rest = before ++ item :: after ∧ P (first :: before) item := by
  constructor
  · rintro ⟨before, item, after, hsplit, hP⟩
    cases before with
    | nil =>
        obtain ⟨rfl, -⟩ := List.cons.inj hsplit
        exact Or.inl hP
    | cons other before =>
        obtain ⟨rfl, hrest⟩ := List.cons.inj hsplit
        exact Or.inr ⟨before, item, after, hrest, hP⟩
  · rintro (hP | ⟨before, item, after, rfl, hP⟩)
    · exact ⟨[], first, rest, rfl, hP⟩
    · exact ⟨first :: before, item, after, rfl, hP⟩

/-- A `for` loop preserves an invariant that may mention the items still to come. -/
theorem foldlM_ok_invariant {ε σ α : Type*} {f : σ → α → Except ε σ} {motive : σ → List α → Prop}
    (hstep : ∀ s a rest s', motive s (a :: rest) → f s a = .ok s' → motive s' rest) :
    ∀ (items : List α) (s s' : σ), motive s items → items.foldlM f s = .ok s' → motive s' [] := by
  intro items
  induction items with
  | nil =>
      intro s s' hs hrun
      rw [List.foldlM_nil] at hrun
      cases hrun
      exact hs
  | cons a rest ih =>
      intro s s' hs hrun
      rw [List.foldlM_cons] at hrun
      obtain ⟨middle, hfirst, hrest⟩ := bind_eq_ok.mp hrun
      exact ih middle s' (hstep s a rest middle hs hfirst) hrest

/-- A `for` loop returns when its body does, for all its items and in every state. -/
theorem foldlM_ok {ε σ α : Type*} {f : σ → α → Except ε σ} {items : List α}
    (hbody : ∀ item ∈ items, ∀ s, ∃ s', f s item = .ok s') (s : σ) :
    ∃ s', items.foldlM f s = .ok s' := by
  induction items generalizing s with
  | nil => exact ⟨s, rfl⟩
  | cons item rest ih =>
      obtain ⟨hitem, hrest⟩ := List.forall_mem_cons.mp hbody
      obtain ⟨middle, hmiddle⟩ := hitem s
      obtain ⟨last, hlast⟩ := ih hrest middle
      exact ⟨last, by rw [List.foldlM_cons]; exact bind_eq_ok.mpr ⟨middle, hmiddle, hlast⟩⟩

/-- A loop that is looked at through a view of its state. -/
theorem map_foldlM {ε σ τ α : Type*} {f : σ → α → Except ε σ} {g : τ → α → Except ε τ}
    (view : σ → τ) (hstep : ∀ s item, (f s item).map view = g (view s) item) (items : List α)
    (s : σ) : (items.foldlM f s).map view = items.foldlM g (view s) := by
  induction items generalizing s with
  | nil => rfl
  | cons item rest ih =>
      rw [List.foldlM_cons, List.foldlM_cons, ← hstep]
      cases f s item with
      | error error => rfl
      | ok middle => exact ih middle

section Accumulate

variable {ε K V X : Type*} [DecidableEq K] {f : V → X → Except ε V}

/-- The body of a loop that adds each item to the accumulator of its key. -/
def accumulate (f : V → X → Except ε V) (cells : K → V) (item : K × X) : Except ε (K → V) :=
  (f (cells item.1) item.2).map (Function.update cells item.1)

theorem accumulate_eq_ok {cells later : K → V} {item : K × X} :
    accumulate f cells item = .ok later ↔ ∃ value, f (cells item.1) item.2 = .ok value ∧
      Function.update cells item.1 value = later := by
  unfold accumulate
  cases f (cells item.1) item.2 <;> simp [Except.map]

/-- **Accumulators do not get into each other's way**: such a loop returns what the loops over the
items of each key return, and raises if one of these does. -/
theorem foldlM_accumulate_eq_ok {items : List (K × X)} {cells later : K → V} :
    items.foldlM (accumulate f) cells = .ok later ↔ ∀ key,
      ((items.filter fun item => item.1 = key).map Prod.snd).foldlM f (cells key) =
        .ok (later key) := by
  induction items generalizing cells with
  | nil =>
      constructor
      · intro hrun key
        cases hrun
        rfl
      · exact fun hall => congrArg Except.ok (funext fun key => Except.ok.inj (hall key))
  | cons item rest ih =>
      obtain ⟨key, x⟩ := item
      have hself : ∀ start : V,
          ((((key, x) :: rest).filter fun item => item.1 = key).map Prod.snd).foldlM f start =
            (f start x >>= fun value =>
              ((rest.filter fun item => item.1 = key).map Prod.snd).foldlM f value) := by
        intro start
        rw [List.filter_cons_of_pos (by simp), List.map_cons, List.foldlM_cons]
      have hother : ∀ other, other ≠ key →
          ((key, x) :: rest).filter (fun item => item.1 = other) =
            rest.filter fun item => item.1 = other := fun other hne =>
        List.filter_cons_of_neg (by simpa using hne.symm)
      rw [List.foldlM_cons]
      constructor
      · intro hrun other
        obtain ⟨middle, hstep, hrest⟩ := bind_eq_ok.mp hrun
        obtain ⟨value, hvalue, rfl⟩ := accumulate_eq_ok.mp hstep
        have hcell := ih.mp hrest other
        by_cases heq : other = key
        · subst heq
          rw [Function.update_self] at hcell
          rw [hself]
          exact bind_eq_ok.mpr ⟨value, hvalue, hcell⟩
        · rw [Function.update_of_ne heq] at hcell
          rw [hother other heq]
          exact hcell
      · intro hall
        have hkey := hall key
        rw [hself] at hkey
        obtain ⟨value, hvalue, hcell⟩ := bind_eq_ok.mp hkey
        refine bind_eq_ok.mpr ⟨_, accumulate_eq_ok.mpr ⟨value, hvalue, rfl⟩, ih.mpr fun other => ?_⟩
        by_cases heq : other = key
        · subst heq
          rw [Function.update_self]
          exact hcell
        · rw [Function.update_of_ne heq, ← hother other heq]
          exact hall other

end Accumulate

/-- What holds of the results of a loop, where it holds of each when something holds of its
item. -/
theorem forall_mem_mapM_iff {ε α : Type*} {β : Type _} {f : α → Except ε β} {P : β → Prop}
    {Q : α → Prop} (hbody : ∀ item result, f item = .ok result → (P result ↔ Q item))
    {items : List α} {results : List β} (hmap : items.mapM f = .ok results) :
    (∀ result ∈ results, P result) ↔ ∀ item ∈ items, Q item := by
  induction items generalizing results with
  | nil =>
      cases hmap
      simp
  | cons item rest ih =>
      rw [List.mapM_cons] at hmap
      obtain ⟨first, hfirst, hrest⟩ := bind_eq_ok.mp hmap
      obtain ⟨others, hothers, hpure⟩ := bind_eq_ok.mp hrest
      cases hpure
      rw [List.forall_mem_cons, List.forall_mem_cons, hbody item first hfirst, ih hothers]

/-- What holds of whatever the body of a loop makes holds of all results. -/
theorem forall_mem_of_mapM {ε α : Type*} {β : Type _} {f : α → Except ε β} {P : β → Prop}
    (hbody : ∀ item result, f item = .ok result → P result) {items : List α} {results : List β}
    (hmap : items.mapM f = .ok results) : ∀ result ∈ results, P result := by
  have hiff : ∀ item result, f item = .ok result → (P result ↔ True) :=
    fun item result hresult => iff_of_true (hbody item result hresult) trivial
  exact (forall_mem_mapM_iff hiff hmap).mpr fun _ _ => trivial

/-- A loop that returns has returned for each item. -/
theorem exists_ok_of_mapM {ε α : Type*} {β : Type _} {f : α → Except ε β} {items : List α}
    {results : List β} (hmap : items.mapM f = .ok results) :
    ∀ item ∈ items, ∃ result, f item = .ok result := by
  induction items generalizing results with
  | nil => simp
  | cons item rest ih =>
      rw [List.mapM_cons] at hmap
      obtain ⟨first, hfirst, hrest⟩ := bind_eq_ok.mp hmap
      obtain ⟨others, hothers, -⟩ := bind_eq_ok.mp hrest
      exact List.forall_mem_cons.mpr ⟨⟨first, hfirst⟩, ih hothers⟩

theorem mapM_eq_ok_map {ε α : Type*} {β : Type _} {f : α → Except ε β} {g : α → β}
    {items : List α} (hbody : ∀ item ∈ items, f item = .ok (g item)) :
    items.mapM f = .ok (items.map g) := by
  induction items with
  | nil => rfl
  | cons item rest ih =>
      obtain ⟨hitem, hrest⟩ := List.forall_mem_cons.mp hbody
      rw [List.mapM_cons, hitem, ih hrest]
      rfl

theorem forall₂_of_mapM {ε α : Type*} {β : Type _} {f : α → Except ε β} {items : List α}
    {results : List β} (hmap : items.mapM f = .ok results) :
    List.Forall₂ (fun item result => f item = .ok result) items results := by
  induction items generalizing results with
  | nil =>
      cases hmap
      exact .nil
  | cons item rest ih =>
      rw [List.mapM_cons] at hmap
      obtain ⟨first, hfirst, hrest⟩ := bind_eq_ok.mp hmap
      obtain ⟨others, hothers, hpure⟩ := bind_eq_ok.mp hrest
      cases hpure
      exact .cons hfirst (ih hothers)

/-- What a loop returns, it returns for one of the items. -/
theorem exists_mem_of_mem_mapM {ε α : Type*} {β : Type _} {f : α → Except ε β} {items : List α}
    {results : List β} (hmap : items.mapM f = .ok results) :
    ∀ result ∈ results, ∃ item ∈ items, f item = .ok result := by
  induction items generalizing results with
  | nil =>
      cases hmap
      simp
  | cons item rest ih =>
      rw [List.mapM_cons] at hmap
      obtain ⟨first, hfirst, hrest⟩ := bind_eq_ok.mp hmap
      obtain ⟨others, hothers, hpure⟩ := bind_eq_ok.mp hrest
      cases hpure
      intro result hresult
      rcases List.mem_cons.mp hresult with rfl | hresult
      · exact ⟨item, List.mem_cons_self, hfirst⟩
      · obtain ⟨other, hother, hok⟩ := ih hothers result hresult
        exact ⟨other, List.mem_cons_of_mem _ hother, hok⟩

theorem exists_mapM_ok {ε α : Type*} {β : Type _} {f : α → Except ε β} {items : List α}
    (hbody : ∀ item ∈ items, ∃ result, f item = .ok result) :
    ∃ results, items.mapM f = .ok results := by
  induction items with
  | nil => exact ⟨[], rfl⟩
  | cons item rest ih =>
      obtain ⟨⟨first, hfirst⟩, hrest⟩ := List.forall_mem_cons.mp hbody
      obtain ⟨others, hothers⟩ := ih hrest
      exact ⟨first :: others, by rw [List.mapM_cons, hfirst, hothers]; rfl⟩

end EveBuild
