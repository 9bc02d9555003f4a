import EveBuild.Effect.System

/-!
# Reasoning about one program among others

While a program waits, other programs and the world go on.  A `Contract` fixes an
invariant of all moments and, for each program, what it relies on between two of
its own steps (`rely`); its own calls and the programs that have been started are
never taken back in between (`Contract.Later`).

`Contract.Safe` is the weakest precondition of a program under such interference:
each of its calls keeps the invariant and what the other programs rely on, and
when it ends, its outcome satisfies the postcondition, then and later.  It has a
rule for each way in which programs are built, so that a program is verified by
itself.  `Contract.Kept.reaches` puts the programs together: if every program that
can be started is safe, and crashes and ticks keep the contract, then in every
configuration that is reached the invariant holds and every program is still safe.
-/

namespace EveBuild.Effect

variable {S : Signature} {ε α β World Start Choice Tick : Type}

/-- An invariant, and what each program relies on while it waits. -/
structure Contract (S : Signature) (ε World Start : Type) where
  inv : Moment S ε World Start → Prop
  rely : ℕ → Moment S ε World Start → Moment S ε World Start → Prop
  rely_refl : ∀ thread moment, rely thread moment moment
  rely_trans : ∀ thread first second third, rely thread first second → rely thread second third →
    rely thread first third

namespace Contract

/-- A moment that a waiting program can find when it goes on. -/
structure Later (contract : Contract S ε World Start) (thread : ℕ)
    (moment later : Moment S ε World Start) : Prop where
  logOf : later.logOf thread = moment.logOf thread
  starts : moment.starts <+: later.starts
  rely : contract.rely thread moment later

variable {contract : Contract S ε World Start} {thread : ℕ}

theorem Later.refl (moment : Moment S ε World Start) : contract.Later thread moment moment :=
  ⟨rfl, List.prefix_refl _, contract.rely_refl thread moment⟩

theorem Later.trans {first second third : Moment S ε World Start}
    (hfirst : contract.Later thread first second) (hsecond : contract.Later thread second third) :
    contract.Later thread first third :=
  ⟨hsecond.logOf.trans hfirst.logOf, hfirst.starts.trans hsecond.starts,
    contract.rely_trans thread _ _ _ hfirst.rely hsecond.rely⟩

variable (contract) (sys : System S ε α World Start Choice Tick)
  (policy : Policy S ε World Start Choice Tick)

/-- The call of a program can be answered so, by a choice that meets the policy. -/
def Answers (thread : ℕ) (op : S.Op) (moment : Moment S ε World Start)
    (answer : Except ε (S.Answer op)) (world : World) : Prop :=
  ∃ choice, policy.call thread op choice moment ∧
    sys.respond thread op choice moment.world = some (answer, world)

/-- The weakest precondition of a program of which the contract is kept. -/
def Safe (thread : ℕ) : Program S ε β → (Except ε β → Moment S ε World Start → Prop) →
    Moment S ε World Start → Prop
  | .ret value, post, moment => ∀ later, contract.Later thread moment later →
      contract.inv later → post (.ok value) later
  | .raise error, post, moment => ∀ later, contract.Later thread moment later →
      contract.inv later → post (.error error) later
  | .call op next, post, moment => ∀ later, contract.Later thread moment later →
      contract.inv later → ∀ answer world, Answers sys policy thread op later answer world →
      contract.inv (later.answer thread ⟨op, answer⟩ world) ∧
      (∀ other ≠ thread, contract.rely other later (later.answer thread ⟨op, answer⟩ world)) ∧
      Safe thread (next answer) post (later.answer thread ⟨op, answer⟩ world)

variable {contract sys policy}

/-- Safety survives waiting. -/
theorem Safe.later {program : Program S ε β}
    {post : Except ε β → Moment S ε World Start → Prop} {moment later : Moment S ε World Start}
    (hsafe : contract.Safe sys policy thread program post moment)
    (hlater : contract.Later thread moment later) :
    contract.Safe sys policy thread program post later := by
  cases program with
  | ret value => exact fun final hfinal => hsafe final (hlater.trans hfinal)
  | raise error => exact fun final hfinal => hsafe final (hlater.trans hfinal)
  | call op next => exact fun final hfinal => hsafe final (hlater.trans hfinal)

theorem Safe.mono {program : Program S ε β}
    {post wider : Except ε β → Moment S ε World Start → Prop} {moment : Moment S ε World Start}
    (hsafe : contract.Safe sys policy thread program post moment)
    (hwider : ∀ outcome later, contract.inv later → post outcome later → wider outcome later) :
    contract.Safe sys policy thread program wider moment := by
  induction program generalizing moment with
  | ret value => exact fun later hlater hinv => hwider _ later hinv (hsafe later hlater hinv)
  | raise error => exact fun later hlater hinv => hwider _ later hinv (hsafe later hlater hinv)
  | call op next ih =>
      intro later hlater hinv answer world hanswers
      obtain ⟨hkept, hrely, hnext⟩ := hsafe later hlater hinv answer world hanswers
      exact ⟨hkept, hrely, ih answer hnext⟩

/-- **Sequencing.**  What the first program ensures when it returns is what the second
one starts from; an error is passed on. -/
theorem Safe.bind {γ : Type} {program : Program S ε β} {next : β → Program S ε γ}
    {middle : Except ε β → Moment S ε World Start → Prop}
    {post : Except ε γ → Moment S ε World Start → Prop} {moment : Moment S ε World Start}
    (hinv : contract.inv moment)
    (hsafe : contract.Safe sys policy thread program middle moment)
    (hreturn : ∀ value later, contract.inv later → middle (.ok value) later →
      contract.Safe sys policy thread (next value) post later)
    (hraise : ∀ error later, contract.inv later → middle (.error error) later →
      post (.error error) later) :
    contract.Safe sys policy thread (program >>= next) post moment := by
  induction program generalizing moment with
  | ret value => exact hreturn value moment hinv (hsafe moment (Later.refl moment) hinv)
  | raise error =>
      intro later hlater hlaterInv
      exact hraise error later hlaterInv (hsafe later hlater hlaterInv)
  | call op rest ih =>
      intro later hlater hlaterInv answer world hanswers
      obtain ⟨hkept, hrely, hrest⟩ := hsafe later hlater hlaterInv answer world hanswers
      exact ⟨hkept, hrely, ih answer hkept hrest⟩

/-- **Catching.**  A value is passed on, the handler starts from the error. -/
theorem Safe.tryCatch {program : Program S ε β} {handler : ε → Program S ε β}
    {middle post : Except ε β → Moment S ε World Start → Prop} {moment : Moment S ε World Start}
    (hinv : contract.inv moment)
    (hsafe : contract.Safe sys policy thread program middle moment)
    (hreturn : ∀ value later, contract.inv later → middle (.ok value) later →
      post (.ok value) later)
    (hraise : ∀ error later, contract.inv later → middle (.error error) later →
      contract.Safe sys policy thread (handler error) post later) :
    contract.Safe sys policy thread (MonadExcept.tryCatch program handler) post moment := by
  induction program generalizing moment with
  | ret value =>
      intro later hlater hlaterInv
      exact hreturn value later hlaterInv (hsafe later hlater hlaterInv)
  | raise error => exact hraise error moment hinv (hsafe moment (Later.refl moment) hinv)
  | call op rest ih =>
      intro later hlater hlaterInv answer world hanswers
      obtain ⟨hkept, hrely, hrest⟩ := hsafe later hlater hlaterInv answer world hanswers
      exact ⟨hkept, hrely, ih answer hkept hrest⟩

/-- **One call.**  It keeps the contract, and its answer satisfies the
postcondition from then on. -/
theorem Safe.perform {op : S.Op} {post : Except ε (S.Answer op) → Moment S ε World Start → Prop}
    {moment : Moment S ε World Start}
    (hstep : ∀ later, contract.Later thread moment later → contract.inv later →
      ∀ answer world, Answers sys policy thread op later answer world →
      contract.inv (later.answer thread ⟨op, answer⟩ world) ∧
      (∀ other ≠ thread, contract.rely other later (later.answer thread ⟨op, answer⟩ world)) ∧
      ∀ final, contract.Later thread (later.answer thread ⟨op, answer⟩ world) final →
        contract.inv final → post answer final) :
    contract.Safe sys policy thread (Program.perform op) post moment := by
  intro later hlater hinv answer world hanswers
  obtain ⟨hkept, hrely, hpost⟩ := hstep later hlater hinv answer world hanswers
  refine ⟨hkept, hrely, ?_⟩
  cases answer with
  | ok value => exact hpost
  | error error => exact hpost

/-- A program of which nothing is asked, whose calls keep the contract whatever they are
and whenever they are made. -/
theorem Safe.of_answers {program : Program S ε β}
    {post : Except ε β → Moment S ε World Start → Prop} {moment : Moment S ε World Start}
    (hcall : ∀ later op answer world, contract.inv later →
      Answers sys policy thread op later answer world →
      contract.inv (later.answer thread ⟨op, answer⟩ world) ∧
      ∀ other ≠ thread, contract.rely other later (later.answer thread ⟨op, answer⟩ world))
    (hpost : ∀ outcome later, contract.inv later → post outcome later) :
    contract.Safe sys policy thread program post moment := by
  induction program generalizing moment with
  | ret value => exact fun later _ hinv => hpost _ later hinv
  | raise error => exact fun later _ hinv => hpost _ later hinv
  | call op next ih =>
      intro later _ hinv answer world hanswers
      obtain ⟨hkept, hrely⟩ := hcall later op answer world hinv hanswers
      exact ⟨hkept, hrely, ih answer⟩

/-! ## All programs together -/

variable (contract sys policy)

/-- The contract is kept by whatever can happen, with a postcondition for each program. -/
structure Kept (post : ℕ → Except ε α → Moment S ε World Start → Prop) : Prop where
  start : ∀ (moment : Moment S ε World Start) start world, contract.inv moment →
    moment.logOf moment.starts.length = [] → policy.start start moment →
    sys.enter moment.starts.length start moment.world = some world →
    contract.inv (moment.enter start world) ∧
    (∀ other < moment.starts.length, contract.rely other moment (moment.enter start world)) ∧
    contract.Safe sys policy moment.starts.length (sys.body start) (post moment.starts.length)
      (moment.enter start world)
  crash : ∀ (moment : Moment S ε World Start) thread, contract.inv moment →
    thread < moment.starts.length → policy.crash thread moment →
    contract.inv (moment.crash thread (sys.crash thread moment.world)) ∧
    ∀ other ≠ thread,
      contract.rely other moment (moment.crash thread (sys.crash thread moment.world))
  tick : ∀ (moment : Moment S ε World Start) tick world, contract.inv moment →
    policy.tick tick moment → sys.tick tick moment.world = some world →
    contract.inv (moment.put world) ∧ ∀ other, contract.rely other moment (moment.put world)

/-- The invariant holds, and every program is safe. -/
structure Good (post : ℕ → Except ε α → Moment S ε World Start → Prop)
    (config : Config S ε α World Start) : Prop where
  inv : contract.inv config.moment
  trace : ∀ entry ∈ config.moment.trace, entry.1 < config.moment.starts.length
  threads : ∀ thread program, config.threads thread = some program →
    thread < config.moment.starts.length ∧
    contract.Safe sys policy thread program (post thread) config.moment

variable {contract sys policy} {post : ℕ → Except ε α → Moment S ε World Start → Prop}

theorem Good.initial {world : World}
    (hinv : contract.inv (Config.initial S ε α Start world).moment) :
    contract.Good sys policy post (Config.initial S ε α Start world) where
  inv := hinv
  trace := by simp [Config.initial]
  threads := by simp [Config.initial]

/-- A program that has ended satisfies its postcondition. -/
theorem Good.outcome {config : Config S ε α World Start}
    (hgood : contract.Good sys policy post config) {program : Program S ε α} {outcome : Except ε α}
    (hthread : config.threads thread = some program) (houtcome : program.outcome? = some outcome) :
    post thread outcome config.moment := by
  have hsafe := (hgood.threads thread program hthread).2
  cases program with
  | ret value =>
      obtain rfl := Option.some_inj.mp houtcome
      exact hsafe _ (Later.refl _) hgood.inv
  | raise error =>
      obtain rfl := Option.some_inj.mp houtcome
      exact hsafe _ (Later.refl _) hgood.inv
  | call op next => cases houtcome

/-- **A step keeps the contract.** -/
theorem Kept.steps (hkept : contract.Kept sys policy post) {before after : Config S ε α World Start}
    {event : Event Start Choice Tick} (hgood : contract.Good sys policy post before)
    (hmeets : policy.Meets before event) (hstep : sys.Steps before event after) :
    contract.Good sys policy post after := by
  cases hstep with
  | @start start world henter =>
      -- a new program has made no call
      have hlog : before.moment.logOf before.moment.starts.length = [] := by
        refine List.eq_nil_iff_forall_not_mem.mpr fun call hcall => ?_
        exact Nat.lt_irrefl _ (hgood.trace _ (Moment.mem_logOf.mp hcall))
      obtain ⟨hinv, hrely, hsafe⟩ :=
        hkept.start before.moment start world hgood.inv hlog hmeets henter
      refine ⟨hinv, fun entry hentry => ?_, fun thread program hthread => ?_⟩
      · have hlt := hgood.trace entry hentry
        simpa using Nat.lt_succ_of_lt hlt
      · rcases of_update_eq_some hthread with ⟨rfl, hprogram⟩ | ⟨_, hthread⟩
        · exact ⟨by simp, Option.some_inj.mp hprogram ▸ hsafe⟩
        · obtain ⟨hlt, hold⟩ := hgood.threads thread program hthread
          exact ⟨by simpa using Nat.lt_succ_of_lt hlt,
            hold.later ⟨rfl, List.prefix_append _ _, hrely thread hlt⟩⟩
  | @call caller choice op next answer world hcaller hrespond =>
      obtain ⟨hlt, hsafe⟩ := hgood.threads caller _ hcaller
      obtain ⟨hinv, hrely, hnext⟩ := hsafe before.moment (Later.refl _) hgood.inv answer world
        ⟨choice, hmeets op next hcaller, hrespond⟩
      refine ⟨hinv, fun entry hentry => ?_, fun thread program hthread => ?_⟩
      · rcases List.mem_cons.mp hentry with rfl | hentry
        · exact hlt
        · exact hgood.trace entry hentry
      · -- the caller goes on, and the others rely on what it keeps
        rcases of_update_eq_some hthread with ⟨rfl, hprogram⟩ | ⟨hne, hthread⟩
        · exact ⟨hlt, Option.some_inj.mp hprogram ▸ hnext⟩
        · obtain ⟨hthreadLt, hold⟩ := hgood.threads thread program hthread
          refine ⟨hthreadLt, hold.later ⟨?_, List.prefix_refl _, hrely thread hne⟩⟩
          rw [Moment.answer_logOf, if_neg (Ne.symm hne)]
  | @crash crashed program hcrashed =>
      have hlt := (hgood.threads crashed program hcrashed).1
      obtain ⟨hinv, hrely⟩ := hkept.crash before.moment crashed hgood.inv hlt hmeets
      refine ⟨hinv, hgood.trace, fun thread program hthread => ?_⟩
      rcases of_update_eq_some hthread with ⟨rfl, hprogram⟩ | ⟨hne, hthread⟩
      · cases hprogram
      · obtain ⟨hthreadLt, hold⟩ := hgood.threads thread program hthread
        exact ⟨hthreadLt, hold.later ⟨rfl, List.prefix_refl _, hrely thread hne⟩⟩
  | @tick tick world htick =>
      obtain ⟨hinv, hrely⟩ := hkept.tick before.moment tick world hgood.inv hmeets htick
      refine ⟨hinv, hgood.trace, fun thread program hthread => ?_⟩
      obtain ⟨hthreadLt, hold⟩ := hgood.threads thread program hthread
      exact ⟨hthreadLt, hold.later ⟨rfl, List.prefix_refl _, hrely thread⟩⟩

/-- **A run keeps the contract.** -/
theorem Kept.reaches (hkept : contract.Kept sys policy post)
    {config later : Config S ε α World Start} (hgood : contract.Good sys policy post config)
    (hreaches : sys.Reaches policy config later) : contract.Good sys policy post later :=
  hreaches.invariant hgood fun _ _ _ hbefore hmeets hstep => hkept.steps hbefore hmeets hstep

end Contract

end EveBuild.Effect
