import EveBuild.BuildChain.Balance
import EveBuild.Data.Layers

/-!
# Which types the levels hold

The types of a level, and so which types become steps and which raw, do not depend
on any quantity: the level at depth `i` holds the types `i` layers below the
target, where below a type are the materials of the blueprint by which it is
expanded (`typesAt`).

`Enters` is the contract of a loop over some types: which keys it enters into the
steps, the raw totals and the next level.  It is proved for one visit, composes
over a level, and over the levels it says that the steps are the expanded types of
the layers walked and the raw totals the others (`levelLoop_charted`).  A walk whose
divisions can fail by their divisor only fails on none of the tables with fewer
types to expand (`levelLoop_returns`).
-/

namespace EveBuild.BuildChain

variable {ceilQuotient : ℤ → ℤ → Except ArithmeticError ℤ} {db : List Blueprint}
  {target : TypeId} {buildSet : Finset TypeId}

/-- The walk expands the type whenever it meets it. -/
def Expands (db : List Blueprint) (target : TypeId) (buildSet : Finset TypeId)
    (typeId : TypeId) : Prop :=
  (expansion db target buildSet typeId).isSome

instance : DecidablePred (Expands db target buildSet) :=
  fun _ => inferInstanceAs (Decidable (_ = true))

/-- What the walk enters into the next level for a type. -/
def materialsBelow (db : List Blueprint) (target : TypeId) (buildSet : Finset TypeId)
    (typeId : TypeId) : Finset TypeId :=
  (((expansion db target buildSet typeId).elim [] Blueprint.materials).map
    Material.typeId).toFinset

/-- The types of the level at a depth. -/
def typesAt (db : List Blueprint) (target : TypeId) (buildSet : Finset TypeId) (depth : ℕ) :
    Finset TypeId :=
  layer (materialsBelow db target buildSet) target depth

theorem mem_materialsBelow {user material : TypeId} :
    material ∈ materialsBelow db target buildSet user ↔
      ∃ blueprint, expansion db target buildSet user = some blueprint ∧
        ∃ entry ∈ blueprint.materials, entry.typeId = material := by
  unfold materialsBelow
  cases expansion db target buildSet user <;> simp

/-- The division by a blueprint's product quantity gives a quotient. -/
def Divides (ceilQuotient : ℤ → ℤ → Except ArithmeticError ℤ) (blueprint : Blueprint) : Prop :=
  ∃ quantity quotient, ceilQuotient quantity blueprint.productQuantity = .ok quotient

/-! ## One level -/

/-- What a loop over the types `typeIds` enters into the dictionaries. -/
structure Enters (ceilQuotient : ℤ → ℤ → Except ArithmeticError ℤ) (db : List Blueprint)
    (target : TypeId) (buildSet : Finset TypeId) (typeIds : List TypeId)
    (walk : Walk) (nextLevel : Dict TypeId ℤ) (walk' : Walk) (nextLevel' : Dict TypeId ℤ) :
    Prop where
  steps : ∀ typeId, typeId ∈ walk'.stepsByTypeId.keys ↔
    typeId ∈ walk.stepsByTypeId.keys ∨ typeId ∈ typeIds ∧ Expands db target buildSet typeId
  raw : ∀ typeId, typeId ∈ walk'.rawTotals.keys ↔
    typeId ∈ walk.rawTotals.keys ∨ typeId ∈ typeIds ∧ ¬ Expands db target buildSet typeId
  flags : ∀ typeId, walk'.rawBuildable.get? typeId =
    if typeId ∈ typeIds ∧ ¬ Expands db target buildSet typeId then
      some (blueprintForProduct db typeId).isSome
    else walk.rawBuildable.get? typeId
  next : ∀ typeId, typeId ∈ nextLevel'.keys ↔ typeId ∈ nextLevel.keys ∨
    ∃ user ∈ typeIds, typeId ∈ materialsBelow db target buildSet user
  divides : ∀ typeId ∈ typeIds, ∀ blueprint,
    expansion db target buildSet typeId = some blueprint → Divides ceilQuotient blueprint

theorem Enters.refl (walk : Walk) (nextLevel : Dict TypeId ℤ) :
    Enters ceilQuotient db target buildSet [] walk nextLevel walk nextLevel :=
  ⟨by simp, by simp, by simp, by simp, by simp⟩

theorem Enters.trans {first second : List TypeId} {walk middle walk' : Walk}
    {nextLevel nextMiddle nextLevel' : Dict TypeId ℤ}
    (hfirst : Enters ceilQuotient db target buildSet first walk nextLevel middle nextMiddle)
    (hsecond : Enters ceilQuotient db target buildSet second middle nextMiddle walk' nextLevel') :
    Enters ceilQuotient db target buildSet (first ++ second) walk nextLevel walk' nextLevel' where
  steps := by
    intro typeId
    rw [hsecond.steps, hfirst.steps, List.mem_append]
    tauto
  raw := by
    intro typeId
    rw [hsecond.raw, hfirst.raw, List.mem_append]
    tauto
  flags := by
    intro typeId
    rw [hsecond.flags, hfirst.flags, ← ite_or]
    simp only [List.mem_append]
    congr 1
    rw [eq_iff_iff]
    tauto
  next := by
    intro typeId
    rw [hsecond.next, hfirst.next]
    simp only [List.mem_append, or_and_right, exists_or, or_assoc]
  divides := by
    intro typeId htypeId
    rcases List.mem_append.mp htypeId with htypeId | htypeId
    · exact hfirst.divides typeId htypeId
    · exact hsecond.divides typeId htypeId

/-- **What one visit enters.** -/
theorem enters_visitType {walk walk' : Walk} {nextLevel nextLevel' : Dict TypeId ℤ}
    {item : TypeId × ℤ}
    (hvisit : visitType ceilQuotient db target buildSet (walk, nextLevel) item =
      .ok (walk', nextLevel')) :
    Enters ceilQuotient db target buildSet [item.1] walk nextLevel walk' nextLevel' := by
  obtain ⟨typeId, quantity⟩ := item
  rcases visitType_cases hvisit with
    ⟨hnone, rfl, rfl⟩ | ⟨blueprint, quotient, hsome, hquotient, rfl, rfl⟩
  · -- the type is bought: it is raw, and nothing is needed below it
    have hnot : ¬ Expands db target buildSet typeId := by simp [Expands, hnone]
    refine ⟨fun other => ?_, fun other => ?_, fun other => ?_, fun other => ?_, ?_⟩
    · simp only [Walk.buy, List.mem_singleton]
      constructor
      · exact Or.inl
      · rintro (hother | ⟨rfl, hexpands⟩)
        · exact hother
        · exact absurd hexpands hnot
    · simp only [Walk.buy, List.mem_singleton, Dict.mem_keys_add]
      constructor
      · rintro (rfl | hother)
        · exact Or.inr ⟨rfl, hnot⟩
        · exact Or.inl hother
      · rintro (hother | ⟨rfl, _⟩)
        · exact Or.inr hother
        · exact Or.inl rfl
    · simp only [Walk.buy, List.mem_singleton, Dict.get?_set]
      by_cases heq : other = typeId
      · subst heq
        simp [hnot]
      · simp [heq]
    · simp [materialsBelow, hnone]
    · simp [hnone]
  · -- the type is built: it has a step, and its materials are on the next level
    have hexpands : Expands db target buildSet typeId := by simp [Expands, hsome]
    refine ⟨fun other => ?_, fun other => ?_, fun other => ?_, fun other => ?_, ?_⟩
    · simp only [Walk.build, List.mem_singleton, Dict.mem_keys_set]
      constructor
      · rintro (rfl | hother)
        · exact Or.inr ⟨rfl, hexpands⟩
        · exact Or.inl hother
      · rintro (hother | ⟨rfl, _⟩)
        · exact Or.inr hother
        · exact Or.inl rfl
    · simp only [Walk.build, List.mem_singleton]
      constructor
      · exact Or.inl
      · rintro (hother | ⟨rfl, hnot⟩)
        · exact hother
        · exact absurd hexpands hnot
    · simp only [Walk.build, List.mem_singleton]
      rw [if_neg]
      rintro ⟨rfl, hnot⟩
      exact hnot hexpands
    · rw [mem_keys_addNeeds]
      simp [mem_materialsBelow, hsome]
    · intro other hother otherBlueprint hother'
      obtain rfl := List.mem_singleton.mp hother
      obtain rfl := Option.some_inj.mp (hsome.symm.trans hother')
      exact ⟨quantity, quotient, hquotient⟩

theorem enters_visitEntries :
    ∀ (entries : List (TypeId × ℤ)) {walk walk' : Walk} {nextLevel nextLevel' : Dict TypeId ℤ},
      entries.foldlM (visitType ceilQuotient db target buildSet) (walk, nextLevel) =
        .ok (walk', nextLevel') →
      Enters ceilQuotient db target buildSet (entries.map Prod.fst) walk nextLevel walk'
        nextLevel' := by
  intro entries
  induction entries with
  | nil =>
      intro walk walk' nextLevel nextLevel' hrun
      cases hrun
      exact .refl walk nextLevel
  | cons entry rest ih =>
      intro walk walk' nextLevel nextLevel' hrun
      rw [List.foldlM_cons] at hrun
      obtain ⟨⟨middle, nextMiddle⟩, hvisit, hrest⟩ := bind_eq_ok.mp hrun
      exact (enters_visitType hvisit).trans (ih hrest)

theorem enters_visitLevel {walk walk' : Walk} {level nextLevel : Dict TypeId ℤ}
    (hvisit : visitLevel ceilQuotient db target buildSet walk level = .ok (walk', nextLevel)) :
    Enters ceilQuotient db target buildSet level.keys walk .empty walk' nextLevel :=
  enters_visitEntries level.entries hvisit

/-! ## The loop -/

/-- The walk has entered the levels before `depth`. -/
structure Charted (ceilQuotient : ℤ → ℤ → Except ArithmeticError ℤ) (db : List Blueprint)
    (target : TypeId) (buildSet : Finset TypeId) (walk : Walk) (depth : ℕ) : Prop where
  steps : ∀ typeId, typeId ∈ walk.stepsByTypeId.keys ↔
    ∃ above < depth, typeId ∈ typesAt db target buildSet above ∧ Expands db target buildSet typeId
  raw : ∀ typeId, typeId ∈ walk.rawTotals.keys ↔
    ∃ above < depth, typeId ∈ typesAt db target buildSet above ∧
      ¬ Expands db target buildSet typeId
  flags : ∀ typeId ∈ walk.rawTotals.keys,
    walk.rawBuildable.get? typeId = some (blueprintForProduct db typeId).isSome
  divides : ∀ above < depth, ∀ typeId ∈ typesAt db target buildSet above, ∀ blueprint,
    expansion db target buildSet typeId = some blueprint → Divides ceilQuotient blueprint

/-- A level's dictionary holds the types of a depth. -/
def HoldsTypes (db : List Blueprint) (target : TypeId) (buildSet : Finset TypeId)
    (level : Dict TypeId ℤ) (depth : ℕ) : Prop :=
  ∀ typeId, typeId ∈ level.keys ↔ typeId ∈ typesAt db target buildSet depth

theorem Charted.start : Charted ceilQuotient db target buildSet .start 0 :=
  ⟨by simp [Walk.start], by simp [Walk.start], by simp [Walk.start], by simp⟩

theorem holdsTypes_single (targetQuantity : ℤ) :
    HoldsTypes db target buildSet (.single target targetQuantity) 0 := by
  intro typeId
  simp [Dict.keys, typesAt]

theorem HoldsTypes.eq_empty {level : Dict TypeId ℤ} {depth : ℕ}
    (hlevel : HoldsTypes db target buildSet level depth) (hempty : level.entries = []) :
    typesAt db target buildSet depth = ∅ := by
  rw [Finset.eq_empty_iff_forall_notMem]
  intro typeId htypeId
  have hkey := (hlevel typeId).mpr htypeId
  rw [Dict.keys, hempty] at hkey
  cases hkey

/-- The level below the types of a depth holds those of the next depth. -/
theorem HoldsTypes.next {walk walk' : Walk} {level nextLevel : Dict TypeId ℤ} {depth : ℕ}
    (hlevel : HoldsTypes db target buildSet level depth)
    (henters : Enters ceilQuotient db target buildSet level.keys walk .empty walk' nextLevel) :
    HoldsTypes db target buildSet nextLevel (depth + 1) := by
  intro typeId
  unfold typesAt
  rw [henters.next, mem_layer_succ]
  constructor
  · rintro (hkey | ⟨user, huser, hbelow⟩)
    · cases hkey
    · exact ⟨user, (hlevel user).mp huser, hbelow⟩
  · rintro ⟨user, huser, hbelow⟩
    exact Or.inr ⟨user, (hlevel user).mpr huser, hbelow⟩

/-- Once a level is empty, deeper levels add nothing. -/
theorem Charted.deeper {walk : Walk} {depth deeper : ℕ}
    (hcharted : Charted ceilQuotient db target buildSet walk depth)
    (hempty : typesAt db target buildSet depth = ∅) (hle : depth ≤ deeper) :
    Charted ceilQuotient db target buildSet walk deeper where
  steps := by
    intro typeId
    rw [hcharted.steps]
    constructor
    · rintro ⟨above, habove, htypeId⟩
      exact ⟨above, habove.trans_le hle, htypeId⟩
    · rintro ⟨above, _, htypeId⟩
      exact ⟨above, lt_of_mem_layer hempty htypeId.1, htypeId⟩
  raw := by
    intro typeId
    rw [hcharted.raw]
    constructor
    · rintro ⟨above, habove, htypeId⟩
      exact ⟨above, habove.trans_le hle, htypeId⟩
    · rintro ⟨above, _, htypeId⟩
      exact ⟨above, lt_of_mem_layer hempty htypeId.1, htypeId⟩
  flags := hcharted.flags
  divides := fun above _ typeId htypeId =>
    hcharted.divides above (lt_of_mem_layer hempty htypeId) typeId htypeId

/-- **What one level enters.** -/
theorem Charted.level {walk walk' : Walk} {level nextLevel : Dict TypeId ℤ} {depth : ℕ}
    (hcharted : Charted ceilQuotient db target buildSet walk depth)
    (hlevel : HoldsTypes db target buildSet level depth)
    (henters : Enters ceilQuotient db target buildSet level.keys walk .empty walk' nextLevel) :
    Charted ceilQuotient db target buildSet walk' (depth + 1) ∧
      HoldsTypes db target buildSet nextLevel (depth + 1) := by
  refine ⟨⟨fun typeId => ?_, fun typeId => ?_, fun typeId htypeId => ?_, ?_⟩,
    hlevel.next henters⟩
  · rw [henters.steps, hcharted.steps, hlevel]
    simp only [Nat.lt_succ_iff_lt_or_eq, or_and_right, exists_or, exists_eq_left]
  · rw [henters.raw, hcharted.raw, hlevel]
    simp only [Nat.lt_succ_iff_lt_or_eq, or_and_right, exists_or, exists_eq_left]
  · rw [henters.flags]
    split
    · rfl
    · rename_i hnot
      exact hcharted.flags typeId (((henters.raw typeId).mp htypeId).resolve_right hnot)
  · intro above habove typeId htypeId
    rcases Nat.lt_succ_iff_lt_or_eq.mp habove with habove | rfl
    · exact hcharted.divides above habove typeId htypeId
    · exact henters.divides typeId ((hlevel typeId).mpr htypeId)

/-- **The loop enters the levels one by one**, whether it stops at an empty level or
after all its passes. -/
theorem levelLoop_charted :
    ∀ (passes : ℕ) {depth : ℕ} {walk walk' : Walk} {level leftover : Dict TypeId ℤ},
      Charted ceilQuotient db target buildSet walk depth →
      HoldsTypes db target buildSet level depth →
      levelLoop ceilQuotient db target buildSet passes walk level = .ok (walk', leftover) →
      Charted ceilQuotient db target buildSet walk' (depth + passes) ∧
        HoldsTypes db target buildSet leftover (depth + passes) := by
  intro passes
  induction passes with
  | zero =>
      intro depth walk walk' level leftover hcharted hlevel hloop
      cases hloop
      exact ⟨hcharted, hlevel⟩
  | succ passes ih =>
      intro depth walk walk' level leftover hcharted hlevel hloop
      rw [levelLoop] at hloop
      split at hloop
      · rename_i hentries
        cases hloop
        -- the loop stops: the level is empty, and so are all below it
        have hempty := hlevel.eq_empty hentries
        refine ⟨hcharted.deeper hempty (Nat.le_add_right _ _), fun typeId => ?_⟩
        rw [typesAt, layer_eq_empty_of_le hempty (Nat.le_add_right _ _), Dict.keys, hentries]
        simp
      · obtain ⟨⟨middle, nextLevel⟩, hvisit, hrest⟩ := bind_eq_ok.mp hloop
        obtain ⟨hmiddle, hnext⟩ := hcharted.level hlevel (enters_visitLevel hvisit)
        rw [show depth + (passes + 1) = depth + 1 + passes by omega]
        exact ih hmiddle hnext hrest

theorem resolveLevels_charted {targetQuantity : ℤ} {walk : Walk} {leftover : Dict TypeId ℤ}
    (hlevels : resolveLevels ceilQuotient db target buildSet targetQuantity =
      .ok (walk, leftover)) :
    Charted ceilQuotient db target buildSet walk maxDepth ∧
      HoldsTypes db target buildSet leftover maxDepth := by
  obtain ⟨hcharted, hleftover⟩ :=
    levelLoop_charted maxDepth .start (holdsTypes_single targetQuantity) hlevels
  rw [Nat.zero_add] at hcharted hleftover
  exact ⟨hcharted, hleftover⟩

/-! ## When the loop returns -/

/-- Whether the division raises depends on its divisor only, as an exact quotient's
does.  A float quotient is of this kind as long as it does not overflow. -/
def RaisesByDivisor (ceilQuotient : ℤ → ℤ → Except ArithmeticError ℤ) : Prop :=
  ∀ quantity other productQuantity quotient, ceilQuotient quantity productQuantity = .ok quotient →
    ∃ otherQuotient, ceilQuotient other productQuantity = .ok otherQuotient

theorem raisesByDivisor_exactCeil : RaisesByDivisor exactCeil := by
  intro quantity other productQuantity quotient hquotient
  unfold exactCeil at hquotient ⊢
  split at hquotient
  · cases hquotient
  · rename_i hdivisor
    exact ⟨_, if_neg hdivisor⟩

/-- The visits of a level return just if all its divisions do. -/
theorem visitEntries_returns_iff :
    ∀ (entries : List (TypeId × ℤ)) (state : Walk × Dict TypeId ℤ),
      (∃ state', entries.foldlM (visitType ceilQuotient db target buildSet) state = .ok state') ↔
        ∀ entry ∈ entries, ∀ blueprint, expansion db target buildSet entry.1 = some blueprint →
          ∃ quotient, ceilQuotient entry.2 blueprint.productQuantity = .ok quotient := by
  intro entries
  induction entries with
  | nil =>
      intro state
      exact ⟨fun _ _ hentry => absurd hentry List.not_mem_nil, fun _ => ⟨state, rfl⟩⟩
  | cons entry rest ih =>
      intro state
      -- a visit divides only for a type that is built, whatever the state
      have hvisit : (∃ middle, visitType ceilQuotient db target buildSet state entry =
          .ok middle) ↔ ∀ blueprint, expansion db target buildSet entry.1 = some blueprint →
            ∃ quotient, ceilQuotient entry.2 blueprint.productQuantity = .ok quotient := by
        cases hexpansion : expansion db target buildSet entry.1 with
        | none =>
            simp only [visitType, hexpansion]
            exact ⟨fun _ _ hsome => absurd hsome (by simp), fun _ => ⟨_, rfl⟩⟩
        | some blueprint =>
            simp only [visitType, hexpansion, Option.some.injEq, forall_eq']
            constructor
            · rintro ⟨middle, hmiddle⟩
              obtain ⟨quotient, hquotient, _⟩ := bind_eq_ok.mp hmiddle
              exact ⟨quotient, hquotient⟩
            · rintro ⟨quotient, hquotient⟩
              exact ⟨_, bind_eq_ok.mpr ⟨quotient, hquotient, rfl⟩⟩
      rw [List.forall_mem_cons, ← hvisit]
      constructor
      · rintro ⟨state', hrun⟩
        obtain ⟨middle, hmiddle, hrest⟩ := bind_eq_ok.mp hrun
        exact ⟨⟨middle, hmiddle⟩, (ih middle).mp ⟨state', hrest⟩⟩
      · rintro ⟨⟨middle, hmiddle⟩, hdivides⟩
        obtain ⟨state', hrest⟩ := (ih middle).mpr hdivides
        exact ⟨state', bind_eq_ok.mpr ⟨middle, hmiddle, hrest⟩⟩

theorem visitEntries_returns (hraises : RaisesByDivisor ceilQuotient)
    (entries : List (TypeId × ℤ)) (state : Walk × Dict TypeId ℤ)
    (hdivides : ∀ entry ∈ entries, ∀ blueprint,
      expansion db target buildSet entry.1 = some blueprint → Divides ceilQuotient blueprint) :
    ∃ state', entries.foldlM (visitType ceilQuotient db target buildSet) state = .ok state' := by
  refine (visitEntries_returns_iff entries state).mpr fun entry hentry blueprint hexpansion => ?_
  obtain ⟨quantity, quotient, hquotient⟩ := hdivides entry hentry blueprint hexpansion
  exact hraises quantity entry.2 _ quotient hquotient

/-- The loop returns when it can divide by the product quantities of all types that
it expands. -/
theorem levelLoop_returns (hraises : RaisesByDivisor ceilQuotient) :
    ∀ (passes : ℕ) {depth : ℕ} (walk : Walk) {level : Dict TypeId ℤ},
      HoldsTypes db target buildSet level depth →
      (∀ below < depth + passes, ∀ typeId ∈ typesAt db target buildSet below, ∀ blueprint,
        expansion db target buildSet typeId = some blueprint → Divides ceilQuotient blueprint) →
      ∃ result, levelLoop ceilQuotient db target buildSet passes walk level = .ok result := by
  intro passes
  induction passes with
  | zero =>
      intro depth walk level _ _
      exact ⟨_, rfl⟩
  | succ passes ih =>
      intro depth walk level hlevel hdivides
      rw [levelLoop]
      split
      · exact ⟨_, rfl⟩
      · obtain ⟨⟨middle, nextLevel⟩, hvisit⟩ : ∃ state,
            visitLevel ceilQuotient db target buildSet walk level = .ok state :=
          visitEntries_returns hraises level.entries (walk, .empty) fun entry hentry =>
            hdivides depth (by omega) entry.1
              ((hlevel entry.1).mp (Dict.mem_keys_of_mem hentry))
        have hnext := hlevel.next (enters_visitLevel hvisit)
        obtain ⟨result, hrest⟩ := ih middle hnext fun below hbelow =>
          hdivides below (by omega)
        exact ⟨result, bind_eq_ok.mpr ⟨_, hvisit, hrest⟩⟩

end EveBuild.BuildChain
