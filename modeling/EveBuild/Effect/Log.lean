import EveBuild.Effect.System

/-!
# What a program's log can be

The calls that a program has made, with their answers, are its own: no other
program changes them.  `Program.Records` says of a program that whatever its calls
are answered, each log that it makes satisfies an invariant and the log at its end
a postcondition.  It has a rule for each way in which programs are built, and what
it says of the program of a start holds of the log of every program that has been
started so, at any moment of any run (`Reaches.logged`), whether it is still going,
has ended, or has crashed.

Logs have the newest call first.
-/

namespace EveBuild.Effect

variable {S : Signature} {ε α β World Start Choice Tick : Type}

namespace Program

/-- Every log from `log` on satisfies `inv`, and the last one `post`. -/
def Records (inv : List (Call S ε) → Prop) :
    Program S ε α → (Except ε α → List (Call S ε) → Prop) → List (Call S ε) → Prop
  | ret value, post, log => post (.ok value) log
  | raise error, post, log => post (.error error) log
  | call op next, post, log => ∀ answer,
      inv (⟨op, answer⟩ :: log) ∧ (next answer).Records inv post (⟨op, answer⟩ :: log)

variable {inv : List (Call S ε) → Prop} {log : List (Call S ε)}

theorem Records.mono {program : Program S ε α}
    {post wider : Except ε α → List (Call S ε) → Prop} (hrecords : program.Records inv post log)
    (hwider : ∀ outcome log, post outcome log → wider outcome log) :
    program.Records inv wider log := by
  induction program generalizing log with
  | ret value => exact hwider _ _ hrecords
  | raise error => exact hwider _ _ hrecords
  | call op next ih =>
      intro answer
      exact ⟨(hrecords answer).1, ih answer (hrecords answer).2⟩

theorem Records.weaken {weaker : List (Call S ε) → Prop} {program : Program S ε α}
    {post : Except ε α → List (Call S ε) → Prop} (hrecords : program.Records inv post log)
    (hweaker : ∀ log, inv log → weaker log) : program.Records weaker post log := by
  induction program generalizing log with
  | ret value => exact hrecords
  | raise error => exact hrecords
  | call op next ih =>
      intro answer
      exact ⟨hweaker _ (hrecords answer).1, ih answer (hrecords answer).2⟩

theorem Records.bind {program : Program S ε α} {next : α → Program S ε β}
    {middle : Except ε α → List (Call S ε) → Prop} {post : Except ε β → List (Call S ε) → Prop}
    (hrecords : program.Records inv middle log)
    (hreturn : ∀ value log, middle (.ok value) log → (next value).Records inv post log)
    (hraise : ∀ error log, middle (.error error) log → post (.error error) log) :
    (program >>= next).Records inv post log := by
  induction program generalizing log with
  | ret value => exact hreturn value log hrecords
  | raise error => exact hraise error log hrecords
  | call op rest ih =>
      intro answer
      exact ⟨(hrecords answer).1, ih answer (hrecords answer).2⟩

theorem Records.tryCatch {program : Program S ε α} {handler : ε → Program S ε α}
    {middle post : Except ε α → List (Call S ε) → Prop}
    (hrecords : program.Records inv middle log)
    (hreturn : ∀ value log, middle (.ok value) log → post (.ok value) log)
    (hraise : ∀ error log, middle (.error error) log → (handler error).Records inv post log) :
    (MonadExcept.tryCatch program handler).Records inv post log := by
  induction program generalizing log with
  | ret value => exact hreturn value log hrecords
  | raise error => exact hraise error log hrecords
  | call op rest ih =>
      intro answer
      exact ⟨(hrecords answer).1, ih answer (hrecords answer).2⟩

theorem Records.ofExcept {result : Except ε α} {post : Except ε α → List (Call S ε) → Prop}
    (hpost : post result log) : (ofExcept result : Program S ε α).Records inv post log := by
  cases result <;> exact hpost

theorem Records.perform {op : S.Op} {post : Except ε (S.Answer op) → List (Call S ε) → Prop}
    (hpost : ∀ answer, inv (⟨op, answer⟩ :: log) ∧ post answer (⟨op, answer⟩ :: log)) :
    (perform op : Program S ε (S.Answer op)).Records inv post log := fun answer =>
  ⟨(hpost answer).1, .ofExcept (hpost answer).2⟩

/-- A program all of whose calls keep the invariant. -/
theorem Issues.records_of_cons {allowed : S.Op → Prop} {returned : α → Prop}
    {program : Program S ε α} (hissues : program.Issues allowed)
    (hreturns : program.Returns returned)
    (hcons : ∀ call log, allowed call.op → inv log → inv (call :: log)) (hlog : inv log) :
    program.Records inv (fun outcome later => inv later ∧
      ∀ value, outcome = .ok value → returned value) log := by
  induction program generalizing log with
  | ret value => exact ⟨hlog, fun other hother => Except.ok.inj hother ▸ hreturns⟩
  | raise error => exact ⟨hlog, nofun⟩
  | call op next ih =>
      intro answer
      have hnext := hcons ⟨op, answer⟩ log hissues.1 hlog
      exact ⟨hnext, ih answer (hissues.2 answer) (hreturns answer) hnext⟩

/-- A program that only makes `allowed` calls records only these. -/
theorem Issues.records {allowed : S.Op → Prop} {program : Program S ε α}
    (hissues : program.Issues allowed) (hlog : ∀ call ∈ log, allowed call.op) :
    program.Records (fun log => ∀ call ∈ log, allowed call.op) (fun _ _ => True) log := by
  refine (hissues.records_of_cons (returns_true program) (fun call log hcall hold => ?_) hlog).mono
    fun _ _ _ => trivial
  exact List.forall_mem_cons.mpr ⟨hcall, hold⟩

theorem Records.and {other : List (Call S ε) → Prop} {program : Program S ε α}
    {post more : Except ε α → List (Call S ε) → Prop} (hrecords : program.Records inv post log)
    (hmore : program.Records other more log) :
    program.Records inv (fun outcome later => post outcome later ∧ more outcome later) log := by
  induction program generalizing log with
  | ret value => exact ⟨hrecords, hmore⟩
  | raise error => exact ⟨hrecords, hmore⟩
  | call op next ih =>
      intro answer
      exact ⟨(hrecords answer).1, ih answer (hrecords answer).2 (hmore answer).2⟩

/-- The program, run by itself, makes the calls of the log and ends so. -/
inductive Ran : Program S ε α → List (Call S ε) → Except ε α → Prop
  | ret (value : α) : Ran (.ret value) [] (.ok value)
  | raise (error : ε) : Ran (.raise error) [] (.error error)
  | call {op next answer log outcome} (hnext : Ran (next answer) log outcome) :
      Ran (.call op next) (log ++ [⟨op, answer⟩]) outcome

/-- Every program adds its own calls to the log. -/
theorem records_ran (program : Program S ε α) (log : List (Call S ε)) :
    program.Records (fun _ => True)
      (fun outcome later => ∃ own, later = own ++ log ∧ Ran program own outcome) log := by
  induction program generalizing log with
  | ret value => exact ⟨[], rfl, .ret value⟩
  | raise error => exact ⟨[], rfl, .raise error⟩
  | call op next ih =>
      refine fun answer => ⟨trivial, (ih answer (⟨op, answer⟩ :: log)).mono ?_⟩
      rintro outcome later ⟨own, rfl, hran⟩
      exact ⟨own ++ [⟨op, answer⟩], by simp, .call hran⟩

/-- What is recorded of a program holds whenever it has run by itself: of each of its calls,
with the calls before it, and of its outcome. -/
theorem Records.of_ran {program : Program S ε α} {post : Except ε α → List (Call S ε) → Prop}
    {own : List (Call S ε)} {outcome : Except ε α} (hrecords : program.Records inv post log)
    (hran : Ran program own outcome) :
    (∀ call earlier, (call :: earlier) <:+ own → inv (call :: (earlier ++ log))) ∧
      post outcome (own ++ log) := by
  induction hran generalizing log with
  | ret value => exact ⟨by simp, hrecords⟩
  | raise error => exact ⟨by simp, hrecords⟩
  | @call op next answer own outcome _ ih =>
      obtain ⟨hcall, hnext⟩ := hrecords answer
      obtain ⟨hown, hpost⟩ := ih hnext
      refine ⟨fun call earlier hsuffix => ?_, by simpa using hpost⟩
      rcases List.suffix_concat_iff.mp hsuffix with hnil | ⟨rest, heq, hrest⟩
      · cases hnil
      cases rest with
      | nil =>
          obtain ⟨rfl, rfl⟩ := List.cons.inj heq
          exact hcall
      | cons first rest =>
          obtain ⟨rfl, rfl⟩ := List.cons.inj heq
          simpa using hown call rest hrest

theorem Ran.of_ret {value : α} {own : List (Call S ε)} {outcome : Except ε α}
    (hran : Ran (.ret value) own outcome) : own = [] ∧ outcome = .ok value := by
  cases hran
  exact ⟨rfl, rfl⟩

theorem Ran.of_raise {error : ε} {own : List (Call S ε)} {outcome : Except ε α}
    (hran : Ran (.raise error) own outcome) : own = [] ∧ outcome = .error error := by
  cases hran
  exact ⟨rfl, rfl⟩

theorem Ran.of_call {op : S.Op} {next : Except ε (S.Answer op) → Program S ε α}
    {own : List (Call S ε)} {outcome : Except ε α} (hran : Ran (.call op next) own outcome) :
    ∃ answer rest, own = rest ++ [⟨op, answer⟩] ∧ Ran (next answer) rest outcome := by
  cases hran with
  | call hnext => exact ⟨_, _, rfl, hnext⟩

/-- **Sequencing.**  The calls of the first program come before those of the second. -/
theorem Ran.of_bind {program : Program S ε α} {next : α → Program S ε β}
    {own : List (Call S ε)} {outcome : Except ε β} (hran : Ran (program >>= next) own outcome) :
    (∃ value first rest, own = rest ++ first ∧ Ran program first (.ok value) ∧
      Ran (next value) rest outcome) ∨
    ∃ error, outcome = .error error ∧ Ran program own (.error error) := by
  induction program generalizing own with
  | ret value => exact Or.inl ⟨value, [], own, by simp, .ret value, hran⟩
  | raise error =>
      obtain ⟨rfl, rfl⟩ := hran.of_raise
      exact Or.inr ⟨error, rfl, .raise error⟩
  | call op rest ih =>
      rw [call_bind] at hran
      cases hran with
      | call hnext =>
          rcases ih _ hnext with ⟨value, first, later, rfl, hfirst, hlater⟩ | ⟨error, rfl, herror⟩
          · exact Or.inl ⟨value, _, later, List.append_assoc .., .call hfirst, hlater⟩
          · exact Or.inr ⟨error, rfl, .call herror⟩

/-- **Catching.** -/
theorem Ran.of_tryCatch {program : Program S ε α} {handler : ε → Program S ε α}
    {own : List (Call S ε)} {outcome : Except ε α}
    (hran : Ran (MonadExcept.tryCatch program handler) own outcome) :
    (∃ value, outcome = .ok value ∧ Ran program own (.ok value)) ∨
    ∃ error first rest, own = rest ++ first ∧ Ran program first (.error error) ∧
      Ran (handler error) rest outcome := by
  induction program generalizing own with
  | ret value =>
      obtain ⟨rfl, rfl⟩ := Ran.of_ret hran
      exact Or.inl ⟨value, rfl, .ret value⟩
  | raise error => exact Or.inr ⟨error, [], own, by simp, .raise error, hran⟩
  | call op rest ih =>
      cases hran with
      | call hnext =>
          rcases ih _ hnext with ⟨value, rfl, hvalue⟩ | ⟨error, first, later, rfl, hfirst, hlater⟩
          · exact Or.inl ⟨value, rfl, .call hvalue⟩
          · exact Or.inr ⟨error, _, later, List.append_assoc .., .call hfirst, hlater⟩

/-- **One call.** -/
theorem Ran.of_perform {op : S.Op} {own : List (Call S ε)} {outcome : Except ε (S.Answer op)}
    (hran : Ran (perform op) own outcome) : own = [⟨op, outcome⟩] := by
  cases hran with
  | @call _ _ answer _ _ hnext =>
      cases answer with
      | ok value =>
          obtain ⟨rfl, rfl⟩ := hnext.of_ret
          rfl
      | error error =>
          obtain ⟨rfl, rfl⟩ := hnext.of_raise
          rfl

/-- A program that has run has made only `allowed` calls. -/
theorem Issues.of_ran {allowed : S.Op → Prop} {program : Program S ε α}
    {own : List (Call S ε)} {outcome : Except ε α} (hissues : program.Issues allowed)
    (hran : Ran program own outcome) : ∀ call ∈ own, allowed call.op := by
  induction hran with
  | ret value => exact List.forall_mem_nil _
  | raise error => exact List.forall_mem_nil _
  | call hnext ih =>
      exact List.forall_mem_append.mpr ⟨ih (hissues.2 _), List.forall_mem_singleton.mpr hissues.1⟩

theorem Returns.of_ran {post : α → Prop} {program : Program S ε α} {own : List (Call S ε)}
    {value : α} (hreturns : program.Returns post) (hran : Ran program own (.ok value)) :
    post value := by
  induction program generalizing own with
  | ret other =>
      obtain ⟨_, heq⟩ := hran.of_ret
      exact Except.ok.inj heq ▸ hreturns
  | raise error => cases hran
  | call op next ih =>
      cases hran with
      | call hnext => exact ih _ (hreturns _) hnext

/-- The calls of a program decide how it ends, and no run of it goes on where another has
ended. -/
theorem Ran.eq_of_suffix {program : Program S ε α} {own first : List (Call S ε)}
    {outcome other : Except ε α} (hran : Ran program own outcome) (hother : Ran program first other)
    (hsuffix : first <:+ own) : first = own ∧ other = outcome := by
  induction hran generalizing first with
  | ret value =>
      obtain ⟨rfl, rfl⟩ := hother.of_ret
      exact ⟨rfl, rfl⟩
  | raise error =>
      obtain ⟨rfl, rfl⟩ := hother.of_raise
      exact ⟨rfl, rfl⟩
  | @call op next answer own outcome _ ih =>
      cases hother with
      | @call _ _ answer' rest _ hrest =>
          obtain ⟨before, heq⟩ := hsuffix
          rw [← List.append_assoc] at heq
          obtain ⟨hinit, hlast⟩ := List.append_inj' heq rfl
          cases hlast
          obtain ⟨rfl, rfl⟩ := ih hrest ⟨before, hinit⟩
          exact ⟨rfl, rfl⟩

/-- Every error that the program raises is one that a call of it has answered. -/
def PassesOn (program : Program S ε α) : Prop :=
  ∀ own error, Ran program own (.error error) → ∃ call ∈ own, call.answer = .error error

theorem PassesOn.ret (value : α) : (ret value : Program S ε α).PassesOn := by
  intro own error hran
  cases hran

theorem PassesOn.perform (op : S.Op) :
    (perform op : Program S ε (S.Answer op)).PassesOn := by
  intro own error hran
  obtain rfl := hran.of_perform
  exact ⟨_, List.mem_singleton_self _, rfl⟩

theorem PassesOn.bind {program : Program S ε α} {next : α → Program S ε β}
    (hprogram : program.PassesOn) (hnext : ∀ value, (next value).PassesOn) :
    (program >>= next).PassesOn := by
  intro own error hran
  rcases hran.of_bind with ⟨value, first, rest, rfl, _, hrest⟩ | ⟨other, heq, hfirst⟩
  · obtain ⟨call, hcall, hanswer⟩ := hnext value rest error hrest
    exact ⟨call, List.mem_append_left _ hcall, hanswer⟩
  · cases heq
    exact hprogram own error hfirst

/-- The calls of a log, the newest first, have been answered one after the other. -/
inductive Answered {World : Type}
    (answers : (op : S.Op) → World → Except ε (S.Answer op) → World → Prop) :
    World → List (Call S ε) → World → Prop
  | nil (world : World) : Answered answers world [] world
  | cons {world middle later log op answer} (hlog : Answered answers world log middle)
      (hanswer : answers op middle answer later) :
      Answered answers world (⟨op, answer⟩ :: log) later

theorem Answered.concat {World : Type}
    {answers : (op : S.Op) → World → Except ε (S.Answer op) → World → Prop}
    {world middle later : World} {log : List (Call S ε)} {op : S.Op}
    {answer : Except ε (S.Answer op)} (hanswer : answers op world answer middle)
    (hlog : Answered answers middle log later) :
    Answered answers world (log ++ [⟨op, answer⟩]) later := by
  induction hlog with
  | nil => exact .cons (.nil world) hanswer
  | cons _ hnext ih => exact .cons ih hnext

/-- The calls of a log, of which some are the first. -/
theorem Answered.split {World : Type}
    {answers : (op : S.Op) → World → Except ε (S.Answer op) → World → Prop}
    {world later : World} {rest first : List (Call S ε)}
    (hlog : Answered answers world (rest ++ first) later) :
    ∃ middle, Answered answers world first middle ∧ Answered answers middle rest later := by
  induction rest generalizing later with
  | nil => exact ⟨later, hlog, .nil later⟩
  | cons call rest ih =>
      cases hlog with
      | cons hrest hanswer =>
          obtain ⟨middle, hfirst, hmiddle⟩ := ih hrest
          exact ⟨middle, hfirst, .cons hmiddle hanswer⟩

/-- A program runs by itself, with a choice for each of its calls: its log, its outcome and
the world that it leaves. -/
def follow {World Choice : Type}
    (respond : (op : S.Op) → Choice → World → Option (Except ε (S.Answer op) × World)) :
    List Choice → Program S ε α → World → Option (List (Call S ε) × Except ε α × World)
  | _, ret value, world => some ([], .ok value, world)
  | _, raise error, world => some ([], .error error, world)
  | [], call .., _ => none
  | choice :: choices, call op next, world =>
      (respond op choice world).bind fun answered =>
        (follow respond choices (next answered.1) answered.2).map fun rest =>
          (rest.1 ++ [⟨op, answered.1⟩], rest.2)

theorem ran_of_follow {World Choice : Type}
    {respond : (op : S.Op) → Choice → World → Option (Except ε (S.Answer op) × World)}
    {choices : List Choice} {program : Program S ε α} {world later : World}
    {own : List (Call S ε)} {outcome : Except ε α}
    (hfollow : program.follow respond choices world = some (own, outcome, later)) :
    Ran program own outcome ∧ Answered (fun op world answer later =>
      ∃ choice, respond op choice world = some (answer, later)) world own later := by
  induction program generalizing choices world own with
  | ret value =>
      cases choices <;> cases hfollow <;> exact ⟨.ret value, .nil _⟩
  | raise error =>
      cases choices <;> cases hfollow <;> exact ⟨.raise error, .nil _⟩
  | call op next ih =>
      cases choices with
      | nil => cases hfollow
      | cons choice choices =>
          obtain ⟨⟨answer, middle⟩, hrespond, hrest⟩ := Option.bind_eq_some_iff.mp hfollow
          obtain ⟨⟨log, rest⟩, hnext, heq⟩ := Option.map_eq_some_iff.mp hrest
          obtain ⟨rfl, rfl⟩ := Prod.mk.inj heq
          obtain ⟨hran, hanswered⟩ := ih answer hnext
          exact ⟨.call hran, .concat ⟨choice, hrespond⟩ hanswered⟩

end Program

namespace System

variable {sys : System S ε α World Start Choice Tick} {policy : Policy S ε World Start Choice Tick}

/-- The log of every program that has been started satisfies the invariant of its
start, and the program that is left of it goes on so. -/
structure Logged (inv : Start → List (Call S ε) → Prop)
    (post : Start → Except ε α → List (Call S ε) → Prop) (config : Config S ε α World Start) :
    Prop where
  trace : ∀ entry ∈ config.moment.trace, entry.1 < config.moment.starts.length
  logs : ∀ (thread : ℕ) start, config.moment.starts[thread]? = some start →
    inv start (config.moment.logOf thread)
  threads : ∀ thread program, config.threads thread = some program →
    ∃ start, config.moment.starts[thread]? = some start ∧
      program.Records (inv start) (post start) (config.moment.logOf thread)
  crashed : ∀ thread ∈ config.moment.crashed,
    thread < config.moment.starts.length ∧ config.threads thread = none

variable {inv : Start → List (Call S ε) → Prop} {post : Start → Except ε α → List (Call S ε) → Prop}

theorem Logged.initial {world : World} :
    Logged inv post (Config.initial S ε α Start world) where
  trace := by simp [Config.initial]
  logs := by simp [Config.initial]
  threads := by simp [Config.initial]
  crashed := by simp [Config.initial]

/-- A program that has not been started has made no calls. -/
theorem Logged.logOf_eq_nil {config : Config S ε α World Start} (hlogged : Logged inv post config)
    {thread : ℕ} (hthread : config.moment.starts.length ≤ thread) :
    config.moment.logOf thread = [] := by
  refine List.eq_nil_iff_forall_not_mem.mpr fun call hcall => ?_
  have hlt := hlogged.trace _ (Moment.mem_logOf.mp hcall)
  exact absurd hlt (Nat.not_lt.mpr hthread)

/-- A call is in the log of a program that has been started. -/
theorem Logged.start_of_mem {config : Config S ε α World Start} (hlogged : Logged inv post config)
    {thread : ℕ} {call : Call S ε} (hcall : call ∈ config.moment.logOf thread) :
    ∃ start, config.moment.starts[thread]? = some start ∧
      inv start (config.moment.logOf thread) := by
  have hlt := hlogged.trace _ (Moment.mem_logOf.mp hcall)
  have hstart := List.getElem?_eq_getElem hlt
  exact ⟨_, hstart, hlogged.logs thread _ hstart⟩

/-- A program has been started: its log is empty, and the others are as they were. -/
theorem Logged.enter {config : Config S ε α World Start} (hlogged : Logged inv post config)
    {start : Start} {program : Program S ε α} (hinv : inv start [])
    (hrecords : program.Records (inv start) (post start) []) (world : World) :
    Logged inv post {
      moment := config.moment.enter start world
      threads := Function.update config.threads config.moment.starts.length (some program) } := by
  have hnil := hlogged.logOf_eq_nil (Nat.le_refl config.moment.starts.length)
  have hlast : (config.moment.starts ++ [start])[config.moment.starts.length]? = some start :=
    List.getElem?_concat_length
  refine ⟨fun entry hentry => ?_, fun thread start' hstart => ?_,
    fun thread program' hthread => ?_, fun thread hcrashed => ?_⟩
  · have hlt := hlogged.trace entry hentry
    simpa using Nat.lt_succ_of_lt hlt
  · rw [Moment.enter_starts] at hstart
    rcases Nat.lt_trichotomy thread config.moment.starts.length with hlt | rfl | hgt
    · rw [List.getElem?_append_left hlt] at hstart
      exact hlogged.logs thread start' hstart
    · obtain rfl := Option.some_inj.mp (hlast.symm.trans hstart)
      rw [Moment.enter_logOf, hnil]
      exact hinv
    · rw [List.getElem?_eq_none (by simp; omega)] at hstart
      cases hstart
  · rcases of_update_eq_some hthread with ⟨rfl, hprogram⟩ | ⟨_, hthread⟩
    · refine ⟨start, hlast, ?_⟩
      rw [Moment.enter_logOf, hnil, ← Option.some_inj.mp hprogram]
      exact hrecords
    · obtain ⟨start', hstart, hold⟩ := hlogged.threads thread program' hthread
      obtain ⟨hlt, _⟩ := List.getElem?_eq_some_iff.mp hstart
      exact ⟨start', by rw [Moment.enter_starts, List.getElem?_append_left hlt, hstart], hold⟩
  · obtain ⟨hlt, hnone⟩ := hlogged.crashed thread hcrashed
    exact ⟨by simpa using Nat.lt_succ_of_lt hlt,
      (Function.update_of_ne (Nat.ne_of_lt hlt) _ _).trans hnone⟩

/-- A call of a program has been answered, and is the newest one of its log. -/
theorem Logged.answer {config : Config S ε α World Start} (hlogged : Logged inv post config)
    {caller : ℕ} {op : S.Op} {next : Except ε (S.Answer op) → Program S ε α}
    (hcaller : config.threads caller = some (.call op next)) (answer : Except ε (S.Answer op))
    (world : World) :
    Logged inv post {
      moment := config.moment.answer caller ⟨op, answer⟩ world
      threads := Function.update config.threads caller (some (next answer)) } := by
  obtain ⟨start, hstart, hrecords⟩ := hlogged.threads caller _ hcaller
  obtain ⟨hinv, hnext⟩ := hrecords answer
  refine ⟨fun entry hentry => ?_, fun thread start' hstart' => ?_,
    fun thread program hthread => ?_, fun thread hcrashed => ?_⟩
  · rcases List.mem_cons.mp hentry with rfl | hentry
    · exact (List.getElem?_eq_some_iff.mp hstart).1
    · exact hlogged.trace entry hentry
  · rw [Moment.answer_logOf]
    split
    · rename_i heq
      subst heq
      obtain rfl := Option.some_inj.mp (hstart.symm.trans hstart')
      exact hinv
    · exact hlogged.logs thread start' hstart'
  · rcases of_update_eq_some hthread with ⟨rfl, hprogram⟩ | ⟨hne, hthread⟩
    · refine ⟨start, hstart, ?_⟩
      rw [Moment.answer_logOf_self, ← Option.some_inj.mp hprogram]
      exact hnext
    · obtain ⟨start', hstart', hold⟩ := hlogged.threads thread program hthread
      refine ⟨start', hstart', ?_⟩
      rwa [Moment.answer_logOf, if_neg (Ne.symm hne)]
  · -- the program that has made the call has not crashed
    obtain ⟨hlt, hnone⟩ := hlogged.crashed thread hcrashed
    have hne : thread ≠ caller := by
      rintro rfl
      cases hnone.symm.trans hcaller
    exact ⟨hlt, (Function.update_of_ne hne _ _).trans hnone⟩

/-- A program has crashed: it keeps its log. -/
theorem Logged.crash {config : Config S ε α World Start} (hlogged : Logged inv post config)
    {crashed : ℕ} {program : Program S ε α} (hthread : config.threads crashed = some program)
    (world : World) :
    Logged inv post {
      moment := config.moment.crash crashed world
      threads := Function.update config.threads crashed none } := by
  refine ⟨hlogged.trace, hlogged.logs, fun thread program' hother => ?_,
    fun thread hcrashed => ?_⟩
  · rcases of_update_eq_some hother with ⟨rfl, hprogram⟩ | ⟨_, hother⟩
    · cases hprogram
    · exact hlogged.threads thread program' hother
  · rcases eq_or_ne thread crashed with rfl | hne
    · obtain ⟨start, hstart, _⟩ := hlogged.threads thread program hthread
      exact ⟨(List.getElem?_eq_some_iff.mp hstart).1, Function.update_self ..⟩
    · obtain ⟨hlt, hnone⟩ := hlogged.crashed thread ((List.mem_cons.mp hcrashed).resolve_left hne)
      exact ⟨hlt, (Function.update_of_ne hne _ _).trans hnone⟩

/-- **A step records what it may.** -/
theorem Steps.logged
    (hbody : ∀ start, inv start [] ∧ (sys.body start).Records (inv start) (post start) [])
    {before after : Config S ε α World Start} {event : Event Start Choice Tick}
    (hstep : sys.Steps before event after) (hlogged : Logged inv post before) :
    Logged inv post after := by
  cases hstep with
  | start henter => exact hlogged.enter (hbody _).1 (hbody _).2 _
  | call hcaller hrespond => exact hlogged.answer hcaller _ _
  | crash hthread => exact hlogged.crash hthread _
  | tick htick => exact ⟨hlogged.trace, hlogged.logs, hlogged.threads, hlogged.crashed⟩

/-- **Logs in a run.** -/
theorem Reaches.logged
    (hbody : ∀ start, inv start [] ∧ (sys.body start).Records (inv start) (post start) [])
    {config later : Config S ε α World Start} (hreaches : sys.Reaches policy config later)
    (hlogged : Logged inv post config) : Logged inv post later :=
  hreaches.invariant hlogged fun _ _ _ hbefore _ hstep => hstep.logged hbody hbefore

/-- A program that has ended has the log that its outcome needs. -/
theorem Logged.outcome {config : Config S ε α World Start} (hlogged : Logged inv post config)
    {thread : ℕ} {start : Start} {program : Program S ε α} {outcome : Except ε α}
    (hstart : config.moment.starts[thread]? = some start)
    (hthread : config.threads thread = some program) (houtcome : program.outcome? = some outcome) :
    post start outcome (config.moment.logOf thread) := by
  obtain ⟨start', hstart', hrecords⟩ := hlogged.threads thread program hthread
  obtain rfl := Option.some_inj.mp (hstart.symm.trans hstart')
  cases program with
  | ret value => exact Option.some_inj.mp houtcome ▸ hrecords
  | raise error => exact Option.some_inj.mp houtcome ▸ hrecords
  | call op next => cases houtcome

end System

end EveBuild.Effect
