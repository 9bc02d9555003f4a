import EveBuild.Effect.System

/-!
# What a trace says of the world

Where each call of a run changes a part of the world in a way that the call and its answer
determine, that part is the replay of the trace (`Reaches.replay`).  And a trace of two
programs is a merge of their logs (`merges_of_trace`).
-/

namespace EveBuild.Effect

variable {S : Signature} {ε α World Start Choice Tick σ : Type}

/-! ## Replays -/

namespace System

variable {sys : System S ε α World Start Choice Tick} {policy : Policy S ε World Start Choice Tick}

/-- **Replay.**  `view` is the part of the world, and `certain` are the calls that determine
what becomes of it; nothing but calls changes it. -/
theorem Reaches.replay {view : World → σ} {effect : S.Op → σ → σ} {certain : Call S ε → Prop}
    (henter : ∀ thread start world later, sys.enter thread start world = some later →
      view later = view world)
    (hcrash : ∀ thread world, view (sys.crash thread world) = view world)
    (htick : ∀ tick world later, sys.tick tick world = some later → view later = view world)
    (hcall : ∀ thread op choice world answer later,
      sys.respond thread op choice world = some (answer, later) → certain ⟨op, answer⟩ →
      view later = effect op (view world))
    {world : World} {config : Config S ε α World Start}
    (hreaches : sys.Reaches policy (Config.initial S ε α Start world) config)
    (hcertain : ∀ entry ∈ config.moment.trace, certain entry.2) :
    view config.moment.world =
      config.moment.trace.foldr (fun entry state => effect entry.2.op state) (view world) := by
  revert hcertain
  refine hreaches.invariant (motive := fun config =>
    (∀ entry ∈ config.moment.trace, certain entry.2) → view config.moment.world =
      config.moment.trace.foldr (fun entry state => effect entry.2.op state) (view world)) ?_ ?_
  · intro _
    rfl
  · intro before event after hbefore _ hstep hcertain
    cases hstep with
    | start hentered => exact (henter _ _ _ _ hentered).trans (hbefore hcertain)
    | call hthread hrespond =>
        obtain ⟨hlast, hearlier⟩ := List.forall_mem_cons.mp hcertain
        exact (hcall _ _ _ _ _ _ hrespond hlast).trans (congrArg _ (hbefore hearlier))
    | crash hthread => exact (hcrash _ _).trans (hbefore hcertain)
    | tick hticked => exact (htick _ _ _ hticked).trans (hbefore hcertain)

end System

/-! ## Merges -/

/-- The items of two lists, each with the number of its list. -/
inductive Merges {β : Type} (one other : ℕ) : List β → List β → List (ℕ × β) → Prop
  | nil : Merges one other [] [] []
  | one {item items others trace} (hmerges : Merges one other items others trace) :
      Merges one other (item :: items) others ((one, item) :: trace)
  | other {item items others trace} (hmerges : Merges one other items others trace) :
      Merges one other items (item :: others) ((other, item) :: trace)

section Merges

variable {β : Type} {one other : ℕ} {trace : List (ℕ × β)}

theorem Merges.symm {items others : List β} (hmerges : Merges one other items others trace) :
    Merges other one others items trace := by
  induction hmerges with
  | nil => exact .nil
  | one _ ih => exact ih.other
  | other _ ih => exact ih.one

theorem nil_merges {items : List β} :
    Merges one other [] items trace ↔ trace = items.map fun item => (other, item) := by
  constructor
  · intro hmerges
    induction items generalizing trace with
    | nil =>
        cases hmerges
        rfl
    | cons item items ih =>
        cases hmerges with
        | other hrest => rw [ih hrest, List.map_cons]
  · rintro rfl
    induction items with
    | nil => exact .nil
    | cons item items ih => exact ih.other

theorem merges_nil {items : List β} :
    Merges one other items [] trace ↔ trace = items.map fun item => (one, item) := by
  constructor
  · intro hmerges
    induction items generalizing trace with
    | nil =>
        cases hmerges
        rfl
    | cons item items ih =>
        cases hmerges with
        | one hrest => rw [ih hrest, List.map_cons]
  · rintro rfl
    induction items with
    | nil => exact .nil
    | cons item items ih => exact ih.one

theorem merges_cons_cons {first second : β} {firsts seconds : List β} :
    Merges one other (first :: firsts) (second :: seconds) trace ↔
      (∃ rest, trace = (one, first) :: rest ∧ Merges one other firsts (second :: seconds) rest) ∨
        ∃ rest, trace = (other, second) :: rest ∧
          Merges one other (first :: firsts) seconds rest := by
  constructor
  · rintro (_ | hrest | hrest)
    · exact Or.inl ⟨_, rfl, hrest⟩
    · exact Or.inr ⟨_, rfl, hrest⟩
  · rintro (⟨rest, rfl, hrest⟩ | ⟨rest, rfl, hrest⟩)
    · exact hrest.one
    · exact hrest.other

/-- **A trace of two programs** merges their logs. -/
theorem merges_of_trace (hne : one ≠ other)
    (htrace : ∀ entry ∈ trace, entry.1 = one ∨ entry.1 = other) :
    Merges one other (trace.filterMap fun entry => if entry.1 = one then some entry.2 else none)
      (trace.filterMap fun entry => if entry.1 = other then some entry.2 else none) trace := by
  induction trace with
  | nil => exact .nil
  | cons entry trace ih =>
      obtain ⟨hentry, hrest⟩ := List.forall_mem_cons.mp htrace
      obtain ⟨thread, item⟩ := entry
      rcases hentry with rfl | rfl
      · simpa [hne] using (ih hrest).one
      · simpa [hne.symm] using (ih hrest).other

/-- **Some items of a trace** merge those of the two logs. -/
theorem merges_filter (hne : one ≠ other)
    (htrace : ∀ entry ∈ trace, entry.1 = one ∨ entry.1 = other) (keep : β → Bool) :
    Merges one other
      ((trace.filterMap fun entry => if entry.1 = one then some entry.2 else none).filter keep)
      ((trace.filterMap fun entry => if entry.1 = other then some entry.2 else none).filter keep)
      (trace.filter fun entry => keep entry.2) := by
  have hfilter : ∀ thread, (trace.filterMap fun entry =>
      if entry.1 = thread then some entry.2 else none).filter keep =
      (trace.filter fun entry => keep entry.2).filterMap fun entry =>
        if entry.1 = thread then some entry.2 else none := by
    intro thread
    clear htrace
    induction trace with
    | nil => rfl
    | cons entry trace ih =>
        by_cases hthread : entry.1 = thread <;> cases hkeep : keep entry.2 <;>
          simp [hthread, hkeep, ih]
  rw [hfilter, hfilter]
  exact merges_of_trace hne fun entry hentry => htrace entry (List.mem_of_mem_filter hentry)

end Merges

end EveBuild.Effect
