import EveBuild.Effect.System

/-!
# What a run leaves as it is

A part of the world that neither an allowed call nor anything else in a run can change is the
same after the run (`Frames.run`), if the programs that are started in it make allowed calls
only.  Which programs are started is read off the events of the run.
-/

namespace EveBuild.Effect.System

variable {S : Signature} {ε α World Start Choice Tick σ : Type}
  {sys : System S ε α World Start Choice Tick} {allowed : S.Op → Prop} {view : World → σ}
  {events : List (Event Start Choice Tick)}

/-- Nothing but the calls of the programs changes what is seen of the world. -/
structure Frames (sys : System S ε α World Start Choice Tick) (allowed : S.Op → Prop)
    (view : World → σ) (events : List (Event Start Choice Tick)) : Prop where
  body : ∀ start, .start start ∈ events → (sys.body start).Issues allowed
  enter : ∀ {thread start world later}, sys.enter thread start world = some later →
    view later = view world
  respond : ∀ {thread op choice world answer later}, allowed op →
    sys.respond thread op choice world = some (answer, later) → view later = view world
  crash : ∀ thread world, view (sys.crash thread world) = view world
  tick : ∀ tick, .tick tick ∈ events → ∀ {world later}, sys.tick tick world = some later →
    view later = view world

/-- A step with one of the events. -/
theorem Frames.step (hframes : sys.Frames allowed view events)
    {before after : Config S ε α World Start} {event : Event Start Choice Tick}
    (hevent : event ∈ events) (hissues : before.Issues allowed)
    (hstep : sys.Steps before event after) :
    after.Issues allowed ∧ view after.moment.world = view before.moment.world := by
  cases hstep with
  | start henter =>
      refine ⟨fun other program hthread => ?_, hframes.enter henter⟩
      rcases of_update_eq_some hthread with ⟨-, hprogram⟩ | ⟨-, hthread⟩
      · exact Option.some_inj.mp hprogram ▸ hframes.body _ hevent
      · exact hissues other program hthread
  | call hcaller hrespond =>
      obtain ⟨hallowed, hnext⟩ := hissues _ _ hcaller
      refine ⟨fun other program hthread => ?_, hframes.respond hallowed hrespond⟩
      rcases of_update_eq_some hthread with ⟨-, hprogram⟩ | ⟨-, hthread⟩
      · exact Option.some_inj.mp hprogram ▸ hnext _
      · exact hissues other program hthread
  | crash hcrashed =>
      refine ⟨fun other program hthread => ?_, hframes.crash _ _⟩
      rcases of_update_eq_some hthread with ⟨-, hprogram⟩ | ⟨-, hthread⟩
      · cases hprogram
      · exact hissues other program hthread
  | tick htick => exact ⟨hissues, hframes.tick _ hevent htick⟩

/-- **The frame of a run.** -/
theorem Frames.run (hframes : sys.Frames allowed view events)
    {config later : Config S ε α World Start} (hissues : config.Issues allowed)
    (hrun : sys.run config events = some later) :
    view later.moment.world = view config.moment.world := by
  have hsome : ∀ (rest : List (Event Start Choice Tick)) (config : Config S ε α World Start),
      rest ⊆ events → config.Issues allowed → sys.run config rest = some later →
      view later.moment.world = view config.moment.world := by
    intro rest
    induction rest with
    | nil =>
        intro config _ _ hrun
        cases hrun
        rfl
    | cons event rest ih =>
        intro config hsubset hissues hrun
        rw [System.run, List.foldlM_cons] at hrun
        obtain ⟨middle, hfirst, hrest⟩ := Option.bind_eq_some_iff.mp hrun
        obtain ⟨hevent, hothers⟩ := List.cons_subset.mp hsubset
        obtain ⟨hmiddle, hview⟩ := hframes.step hevent hissues (steps_of_step hfirst)
        exact (ih middle hothers hmiddle hrest).trans hview
  exact hsome events config (List.Subset.refl _) hissues hrun

end EveBuild.Effect.System
