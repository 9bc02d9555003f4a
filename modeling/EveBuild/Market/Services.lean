import EveBuild.Market.Logs

/-!
# What RabbitMQ and MongoDB do with a call

`Responded` lists the outcomes of each call with what they do to the world.  An
insert of many documents keeps all rows, adds nothing but its documents, and, when
it is settled, leaves for each document a row that is the document or has its
values under the keys of a unique index (`violates_of_settled`).
-/

namespace EveBuild.Market

open Effect

/-! ## Inserting documents -/

/-- A document is in the collection, or a row stands in its way. -/
def Present (uniqueIndexes : List (List String)) (rows : List Document) (document : Document) :
    Prop :=
  document ∈ rows ∨ Violates uniqueIndexes rows document

variable {uniqueIndexes : List (List String)}

theorem Present.mono {rows later : List Document} {document : Document} (hsubset : rows ⊆ later)
    (hpresent : Present uniqueIndexes rows document) : Present uniqueIndexes later document := by
  rcases hpresent with hmem | ⟨keys, hkeys, row, hrow, heq⟩
  · exact Or.inl (hsubset hmem)
  · exact Or.inr ⟨keys, hkeys, row, hsubset hrow, heq⟩

/-- Rows are only added, and only documents of the batch are, each at most once. -/
theorem insertMany_eq_append (batch : List (Document × Attempt)) (rows : List Document) :
    ∃ inserted, (insertMany uniqueIndexes rows batch).1 = rows ++ inserted ∧
      inserted.Sublist (batch.map Prod.fst) := by
  induction batch generalizing rows with
  | nil => exact ⟨[], (List.append_nil rows).symm, List.Sublist.refl _⟩
  | cons item rest ih =>
      obtain ⟨document, attempt⟩ := item
      obtain ⟨skipped, hskipped, hskippedRest⟩ := ih rows
      cases attempt with
      | attempted =>
          rw [insertMany]
          split
          · exact ⟨skipped, hskipped, hskippedRest.cons document⟩
          · obtain ⟨inserted, hinserted, hrest⟩ := ih (rows ++ [document])
            exact ⟨document :: inserted, by simpa using hinserted, hrest.cons_cons document⟩
      | failed code => exact ⟨skipped, hskipped, hskippedRest.cons document⟩
      | skipped => exact ⟨skipped, hskipped, hskippedRest.cons document⟩

/-- No row is taken away. -/
theorem subset_insertMany (batch : List (Document × Attempt)) (rows : List Document) :
    rows ⊆ (insertMany uniqueIndexes rows batch).1 := by
  obtain ⟨inserted, heq, _⟩ := @insertMany_eq_append uniqueIndexes batch rows
  exact heq ▸ List.subset_append_left rows inserted

/-- Only documents of the batch are added. -/
theorem mem_insertMany {batch : List (Document × Attempt)} {rows : List Document}
    {row : Document} (hrow : row ∈ (insertMany uniqueIndexes rows batch).1) :
    row ∈ rows ∨ row ∈ batch.map Prod.fst := by
  obtain ⟨inserted, heq, hsublist⟩ := @insertMany_eq_append uniqueIndexes batch rows
  rw [heq] at hrow
  exact (List.mem_append.mp hrow).imp_right (hsublist.subset ·)

/-- When nothing is skipped and nothing but duplicate keys is rejected, every
document is present. -/
theorem present_insertMany {batch : List (Document × Attempt)} {rows : List Document}
    (hskipped : ∀ item ∈ batch, item.2 ≠ .skipped)
    (hfailed : ∀ item ∈ batch, item.2 ≠ .failed duplicateKey)
    (hcodes : ∀ code ∈ (insertMany uniqueIndexes rows batch).2, code = duplicateKey) :
    ∀ item ∈ batch, Present uniqueIndexes (insertMany uniqueIndexes rows batch).1 item.1 := by
  induction batch generalizing rows with
  | nil => simp
  | cons item rest ih =>
      obtain ⟨document, attempt⟩ := item
      have hskipped' := fun item hitem => hskipped item (List.mem_cons_of_mem _ hitem)
      have hfailed' := fun item hitem => hfailed item (List.mem_cons_of_mem _ hitem)
      cases attempt with
      | attempted =>
          rw [insertMany] at hcodes ⊢
          split
          · rename_i hviolates
            rw [if_pos hviolates] at hcodes
            -- the document is refused, since a row with its key is there
            have hrest := ih hskipped' hfailed' fun code hcode =>
              hcodes code (List.mem_cons_of_mem _ hcode)
            intro item hitem
            rcases List.mem_cons.mp hitem with rfl | hitem
            · exact Present.mono (subset_insertMany rest rows) (Or.inr hviolates)
            · exact hrest item hitem
          · rename_i hviolates
            rw [if_neg hviolates] at hcodes
            intro item hitem
            rcases List.mem_cons.mp hitem with rfl | hitem
            · exact Or.inl (subset_insertMany rest _ (by simp))
            · exact ih hskipped' hfailed' hcodes item hitem
      | failed code =>
          -- only duplicate keys are reported
          have hcode : code = duplicateKey := hcodes code (List.mem_cons_self ..)
          exact absurd (hcode ▸ rfl) (hfailed _ (List.mem_cons_self ..))
      | skipped => exact absurd rfl (hskipped _ (List.mem_cons_self ..))

/-! ## The outcomes of the calls -/

/-- What a call of a program can be answered, and the world afterwards. -/
inductive Responded (thread : ℕ) (world : World) :
    (op : Op) → Except MarketError op.Answer → World → Prop
  | regionIds (answer) : Responded thread world .regionIds answer world
  | uuid4 (uuid) : Responded thread world .uuid4 (.ok uuid) world
  | page (regionId page answer) : Responded thread world (.page regionId page) answer world
  | utcnow (now) : Responded thread world .utcnow (.ok now) world
  | unpublished (name body) :
      Responded thread world (.publish name body) (.error .connection) world
  | published (name body answer) : Responded thread world (.publish name body) answer
      (world.setQueue name ((world.queue name).publish body))
  | unacked (name answer) : Responded thread world (.ack name) answer world
  | acked (name) : Responded thread world (.ack name) (.ok ())
      (world.setQueue name ((world.queue name).ack thread))
  | inserted (documents attempts answer) (hlength : attempts.length = documents.length)
      (hfailed : .failed duplicateKey ∉ attempts)
      (hsettled : Settled answer → .skipped ∉ attempts ∧ ∀ code ∈
        (insertMany world.uniqueIndexes world.rows (documents.zip attempts)).2,
          code = duplicateKey) :
      Responded thread world (.insertMany documents) answer { world with
        rows := (insertMany world.uniqueIndexes world.rows (documents.zip attempts)).1 }

theorem responded_of_respond {thread : ℕ} {op : Op} {choice : Choice} {world world' : World}
    {answer : Except MarketError op.Answer}
    (hrespond : respond thread op choice world = some (answer, world')) :
    Responded thread world op answer world' := by
  cases op with
  | regionIds =>
      cases choice <;> simp only [respond, Option.some.injEq, Prod.mk.injEq, reduceCtorEq]
        at hrespond
      obtain ⟨rfl, rfl⟩ := hrespond
      exact .regionIds _
  | uuid4 =>
      cases choice <;> simp only [respond, Option.some.injEq, Prod.mk.injEq, reduceCtorEq]
        at hrespond
      obtain ⟨rfl, rfl⟩ := hrespond
      exact .uuid4 _
  | page regionId page =>
      cases choice <;> simp only [respond, Option.some.injEq, Prod.mk.injEq, reduceCtorEq]
        at hrespond
      obtain ⟨rfl, rfl⟩ := hrespond
      exact .page _ _ _
  | utcnow =>
      cases choice <;> simp only [respond, Option.some.injEq, Prod.mk.injEq, reduceCtorEq]
        at hrespond
      obtain ⟨rfl, rfl⟩ := hrespond
      exact .utcnow _
  | publish name body =>
      cases choice <;> simp only [respond, reduceCtorEq] at hrespond
      -- a body can arrive without being confirmed
      rename_i arrives confirmed
      cases arrives <;> cases confirmed <;>
        simp only [Bool.false_eq_true, not_true_eq_false, not_false_eq_true, and_true, and_false,
          if_true, if_false, Option.some.injEq, Prod.mk.injEq, reduceCtorEq] at hrespond <;>
        obtain ⟨rfl, rfl⟩ := hrespond
      · exact .unpublished _ _
      · exact .published _ _ _
      · exact .published _ _ _
  | ack name =>
      cases choice <;> simp only [respond, reduceCtorEq] at hrespond
      split_ifs at hrespond <;> obtain ⟨rfl, rfl⟩ := Prod.mk.inj (Option.some.inj hrespond)
      · exact .unacked _ _
      · exact .acked _
      · exact .unacked _ _
  | insertMany documents =>
      cases choice <;> simp only [respond, reduceCtorEq] at hrespond
      rename_i attempts lost
      split at hrespond
      · cases hrespond
      rename_i hbad
      -- the attempts are those that an unordered insert can make
      obtain ⟨hlength, hfailed, hskipped⟩ : attempts.length = documents.length ∧
          .failed duplicateKey ∉ attempts ∧ (lost = false → .skipped ∉ attempts) := by
        simpa [not_or, not_and_or] using hbad
      obtain ⟨rfl, rfl⟩ := Prod.mk.inj (Option.some.inj hrespond)
      refine .inserted documents attempts _ hlength hfailed fun hsettled => ?_
      split_ifs at hsettled with hlost hcodes
      · exact absurd hsettled id
      · exact ⟨hskipped (Bool.eq_false_iff.mpr hlost), by simp [hcodes]⟩
      · exact ⟨hskipped (Bool.eq_false_iff.mpr hlost), hsettled⟩

/-- **What a start does**: a worker is given a message that is ready. -/
inductive Entered (thread : ℕ) (world : World) : Start → World → Prop
  | dispatch : Entered thread world .dispatch world
  | fetch (body) (hready : body ∈ world.scrapeJobs.ready) :
      Entered thread world (.fetch body)
        { world with scrapeJobs := world.scrapeJobs.deliver thread body }
  | write (body) (hready : body ∈ world.results.ready) :
      Entered thread world (.write body)
        { world with results := world.results.deliver thread body }

theorem entered_of_enter {thread : ℕ} {start : Start} {world later : World}
    (henter : enter thread start world = some later) : Entered thread world start later := by
  cases start with
  | dispatch =>
      obtain rfl := Option.some_inj.mp henter
      exact .dispatch
  | fetch body =>
      simp only [enter] at henter
      split at henter
      · rename_i hready
        obtain rfl := Option.some_inj.mp henter
        exact .fetch body hready
      · cases henter
  | write body =>
      simp only [enter] at henter
      split at henter
      · rename_i hready
        obtain rfl := Option.some_inj.mp henter
        exact .write body hready
      · cases henter

end EveBuild.Market
