import EveBuild.Effect.Contract

/-!
# Programs that own a part of the state

Some of what a program works on is left alone by everybody else: its log always, and
whatever a lock protects for as long as it holds the lock.  A `Share` names such a part
of the moment and when it is held.  `Share.Triple` are triples over the values of that
part, and under them a program is verified as if it ran alone: no rule but
`Triple.perform` mentions the other programs, and there only to say what the call does
to them.
-/

namespace EveBuild.Effect

namespace Contract

variable {S : Signature} {ε α β σ World Start Choice Tick : Type}

/-- A part of the moment that does not change while the program waits and holds it. -/
structure Share (contract : Contract S ε World Start) (thread : ℕ) (σ : Type) where
  held : Moment S ε World Start → Prop
  part : Moment S ε World Start → σ
  stable : ∀ {moment later}, contract.Later thread moment later → contract.inv later →
    held moment → held later ∧ part later = part moment

namespace Share

variable {contract : Contract S ε World Start} {thread : ℕ} (share : contract.Share thread σ)
  (sys : System S ε α World Start Choice Tick) (policy : Policy S ε World Start Choice Tick)

/-- Started with the part in a state of `pre`, the program is safe, and when it ends the
part is still held and in a state of `post`. -/
def Triple (pre : σ → Prop) (program : Program S ε β) (post : Except ε β → σ → Prop) : Prop :=
  ∀ moment, contract.inv moment → share.held moment → pre (share.part moment) →
    contract.Safe sys policy thread program
      (fun outcome later => share.held later ∧ post outcome (share.part later)) moment

variable {share sys policy} {pre : σ → Prop}

theorem Triple.consequence {narrower : σ → Prop} {program : Program S ε β}
    {post wider : Except ε β → σ → Prop} (htriple : share.Triple sys policy pre program post)
    (hpre : ∀ state, narrower state → pre state)
    (hpost : ∀ outcome state, post outcome state → wider outcome state) :
    share.Triple sys policy narrower program wider := by
  intro moment hinv hheld hnarrower
  refine (htriple moment hinv hheld (hpre _ hnarrower)).mono ?_
  exact fun outcome later _ ⟨hlaterHeld, hlater⟩ => ⟨hlaterHeld, hpost outcome _ hlater⟩

/-- What does not depend on the state is known from the start. -/
theorem Triple.assume {fact : Prop} {program : Program S ε β} {post : Except ε β → σ → Prop}
    (htriple : fact → share.Triple sys policy pre program post) :
    share.Triple sys policy (fun state => fact ∧ pre state) program post :=
  fun moment hinv hheld ⟨hfact, hpre⟩ => htriple hfact moment hinv hheld hpre

/-- A program that has ended waits for ever. -/
theorem held_of_later {moment later : Moment S ε World Start} {post : σ → Prop}
    (hlater : contract.Later thread moment later) (hinv : contract.inv later)
    (hheld : share.held moment) (hpost : post (share.part moment)) :
    share.held later ∧ post (share.part later) := by
  obtain ⟨hlaterHeld, hpart⟩ := share.stable hlater hinv hheld
  exact ⟨hlaterHeld, hpart ▸ hpost⟩

theorem Triple.ret {value : β} {post : Except ε β → σ → Prop}
    (hpost : ∀ state, pre state → post (.ok value) state) :
    share.Triple sys policy pre (.ret value) post :=
  fun _ _ hheld hpre _ hlater hlaterInv => held_of_later hlater hlaterInv hheld (hpost _ hpre)

theorem Triple.raise {error : ε} {post : Except ε β → σ → Prop}
    (hpost : ∀ state, pre state → post (.error error) state) :
    share.Triple sys policy pre (.raise error : Program S ε β) post :=
  fun _ _ hheld hpre _ hlater hlaterInv => held_of_later hlater hlaterInv hheld (hpost _ hpre)

/-- **Sequencing.** -/
theorem Triple.bind {γ : Type} {program : Program S ε β} {next : β → Program S ε γ}
    {middle : Except ε β → σ → Prop} {post : Except ε γ → σ → Prop}
    (htriple : share.Triple sys policy pre program middle)
    (hreturn : ∀ value, share.Triple sys policy (middle (.ok value)) (next value) post)
    (hraise : ∀ error state, middle (.error error) state → post (.error error) state) :
    share.Triple sys policy pre (program >>= next) post := by
  intro moment hinv hheld hpre
  refine (htriple moment hinv hheld hpre).bind hinv ?_ ?_
  · exact fun value later hlaterInv ⟨hlaterHeld, hlater⟩ =>
      hreturn value later hlaterInv hlaterHeld hlater
  · exact fun error later _ ⟨hlaterHeld, hlater⟩ => ⟨hlaterHeld, hraise error _ hlater⟩

/-- **Catching.** -/
theorem Triple.tryCatch {program : Program S ε β} {handler : ε → Program S ε β}
    {middle post : Except ε β → σ → Prop}
    (htriple : share.Triple sys policy pre program middle)
    (hreturn : ∀ value state, middle (.ok value) state → post (.ok value) state)
    (hraise : ∀ error, share.Triple sys policy (middle (.error error)) (handler error) post) :
    share.Triple sys policy pre (MonadExcept.tryCatch program handler) post := by
  intro moment hinv hheld hpre
  refine (htriple moment hinv hheld hpre).tryCatch hinv ?_ ?_
  · exact fun value later _ ⟨hlaterHeld, hlater⟩ => ⟨hlaterHeld, hreturn value _ hlater⟩
  · exact fun error later hlaterInv ⟨hlaterHeld, hlater⟩ =>
      hraise error later hlaterInv hlaterHeld hlater

/-- **One call** keeps the contract and the share, and leaves the part in a state of the
postcondition. -/
theorem Triple.perform {op : S.Op} {post : Except ε (S.Answer op) → σ → Prop}
    (hstep : ∀ moment, contract.inv moment → share.held moment → pre (share.part moment) →
      ∀ answer world, Answers sys policy thread op moment answer world →
      contract.inv (moment.answer thread ⟨op, answer⟩ world) ∧
      (∀ other ≠ thread, contract.rely other moment (moment.answer thread ⟨op, answer⟩ world)) ∧
      share.held (moment.answer thread ⟨op, answer⟩ world) ∧
      post answer (share.part (moment.answer thread ⟨op, answer⟩ world))) :
    share.Triple sys policy pre (Program.perform op) post := by
  intro moment _ hheld hpre
  refine Safe.perform fun later hlater hlaterInv answer world hanswers => ?_
  obtain ⟨hlaterHeld, hlaterPre⟩ := held_of_later hlater hlaterInv hheld hpre
  obtain ⟨hkept, hrely, hheldAfter, hpost⟩ :=
    hstep later hlaterInv hlaterHeld hlaterPre answer world hanswers
  exact ⟨hkept, hrely, fun final hfinal hfinalInv =>
    held_of_later hfinal hfinalInv hheldAfter hpost⟩

end Share

end Contract

end EveBuild.Effect
