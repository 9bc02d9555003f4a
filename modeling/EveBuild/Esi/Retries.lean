import EveBuild.Esi.Attempts

/-!
# How often a request is sent

A call sends its request until a response is `Final`, and it sleeps once before each repetition
(`retriesFaithfully_iff`).  The attempts are bounded by the settings, but the delay before the
next one is not: it is doubled before it is compared with the longest delay there is, and from
attempt 1025 on it is too large for a `float`.
-/

namespace EveBuild.Esi

open Effect

variable {Body : Type} {settings : Settings} {stream : Stream Body} {request : Request}

/-- What happens in `count` attempts from `first` on that are repeated. -/
def attempts (settings : Settings) (stream : Stream Body) (request : Request) (first count : ℕ) :
    List (Event Body) :=
  (List.range' first count).flatMap fun attempt =>
    .requested request (stream.response attempt) ::
      (pausesAfter settings (stream.response attempt) attempt (stream.jitter attempt)).map .slept

/-- The request is sent until the first response that is final, which is what the call comes to,
and before each repetition there is one delay.  After a success there may be another pause. -/
def RetriesFaithfully (settings : Settings) (stream : Stream Body) (request : Request) : Prop :=
  ∃ last, IsLeast { attempt | 1 ≤ attempt ∧ Final settings (stream.response attempt) attempt }
      last ∧
    (last : ℤ) ≤ max 1 settings.marketOrdersPageRetryMaxAttempts ∧
    ∃ delays : ℕ → ℚ,
      (∀ attempt, 1 ≤ attempt → attempt < last →
        retryDelay? (stream.response attempt) attempt (stream.jitter attempt) =
          some (delays attempt)) ∧
      runOn stream (getWithRetry settings request 1) .empty =
        (outcomeOf (stream.response last),
          ⟨last,
            ((List.range' 1 (last - 1)).flatMap fun attempt =>
              [.requested request (stream.response attempt), .slept (delays attempt)]) ++
            .requested request (stream.response last) ::
              (if (stream.response last).isSuccess then limitPauses settings (stream.response last)
                else []).map .slept⟩)

/-! ## Attempts that are repeated -/

theorem runOn_attempts (request : Request) : ∀ (count : ℕ) {first : ℕ} {record : Record Body},
    record.received + 1 = first →
    (∀ attempt, first ≤ attempt → attempt < first + count →
      Repeated settings (stream.response attempt) attempt) →
    runOn stream (getWithRetry settings request first) record =
      runOn stream (getWithRetry settings request (first + count))
        ⟨record.received + count,
          record.events ++ attempts settings stream request first count⟩ := by
  intro count
  induction count with
  | zero =>
      intro first record _ _
      simp [attempts]
  | succ count ih =>
      intro first record hfirst hrepeated
      have hthis := hrepeated first le_rfl (by omega)
      rw [runOn_of_repeated (by rw [hfirst]) hthis, ih (by simp [Record.exchange, ← hfirst])
        fun attempt hle hlt => hrepeated attempt (by omega) (by omega)]
      rw [show first + 1 + count = first + (count + 1) by omega]
      congr 2
      · simp only [Record.exchange]
        omega
      · simp [Record.exchange, attempts, List.range'_succ, hfirst]

/-- The run of a call in which `count` attempts are repeated and the next one is not. -/
theorem runOn_call (request : Request) {count : ℕ}
    (hrepeated : ∀ attempt, 1 ≤ attempt → attempt ≤ count →
      Repeated settings (stream.response attempt) attempt)
    (hends : ¬ Repeated settings (stream.response (count + 1)) (count + 1)) :
    ∃ outcome, runOn stream (getWithRetry settings request 1) .empty =
        (outcome, ⟨count + 1, attempts settings stream request 1 count ++
          .requested request (stream.response (count + 1)) ::
            (pausesAfter settings (stream.response (count + 1)) (count + 1)
              (stream.jitter (count + 1))).map .slept⟩) ∧
      (Final settings (stream.response (count + 1)) (count + 1) →
        (stream.response (count + 1)).WellFormed →
        outcome = outcomeOf (stream.response (count + 1))) ∧
      (¬ Final settings (stream.response (count + 1)) (count + 1) →
        outcome = .error .overflowError) := by
  have hfirst : (.empty : Record Body).received + 1 = 1 := rfl
  have hattempts := runOn_attempts request count hfirst fun attempt hle hlt =>
    hrepeated attempt hle (by omega)
  have hrecord : (⟨(.empty : Record Body).received + count, (.empty : Record Body).events ++
      attempts settings stream request 1 count⟩ : Record Body) =
      ⟨count, attempts settings stream request 1 count⟩ := by
    simp [Record.empty]
  rw [hattempts, hrecord, Nat.add_comm 1 count]
  obtain ⟨outcome, hrun, hfinal, hnot⟩ := runOn_of_not_repeated request
    ⟨count, attempts settings stream request 1 count⟩ rfl hends
  exact ⟨outcome, hrun, hfinal, hnot⟩

/-- There is a last attempt. -/
theorem exists_last (settings : Settings) (stream : Stream Body) :
    ∃ last, IsLeast { attempt | 1 ≤ attempt ∧ Final settings (stream.response attempt) attempt }
        last ∧
      (last : ℤ) ≤ max 1 settings.marketOrdersPageRetryMaxAttempts := by
  have hbound : 1 ≤ max 1 settings.marketOrdersPageRetryMaxAttempts.toNat ∧
      Final settings (stream.response (max 1 settings.marketOrdersPageRetryMaxAttempts.toNat))
        (max 1 settings.marketOrdersPageRetryMaxAttempts.toNat) :=
    ⟨le_max_left .., Or.inr (Or.inr (by omega))⟩
  have hexists : ∃ attempt, 1 ≤ attempt ∧ Final settings (stream.response attempt) attempt :=
    ⟨_, hbound⟩
  refine ⟨Nat.find hexists, ⟨Nat.find_spec hexists, fun attempt h => Nat.find_min' hexists h⟩, ?_⟩
  have hle := Nat.find_min' hexists hbound
  omega

/-! ## When the delay can be computed -/

/-- No attempt from 1025 on is repeated unless its response tells how long to wait. -/
def DelaysComputable (settings : Settings) (stream : Stream Body) : Prop :=
  ∀ attempt, 1025 ≤ attempt →
    (∀ earlier, 1 ≤ earlier → earlier ≤ attempt →
      ¬ Final settings (stream.response earlier) earlier) →
    (stream.response attempt).retryAfter ≠ .absent

theorem retriesFaithfully_of_delaysComputable (hformed : ∀ k, (stream.response k).WellFormed)
    (hdelays : DelaysComputable settings stream) : RetriesFaithfully settings stream request := by
  obtain ⟨last, hleast, hbound⟩ := exists_last settings stream
  obtain ⟨⟨hone, hfinal⟩, hmin⟩ := hleast
  -- the last attempt is the first one that is final
  have hbefore : ∀ attempt, 1 ≤ attempt → attempt < last →
      ¬ Final settings (stream.response attempt) attempt := fun attempt hattempt hlt hend =>
    absurd (hmin ⟨hattempt, hend⟩) (by omega)
  have hrepeated : ∀ attempt, 1 ≤ attempt → attempt < last →
      Repeated settings (stream.response attempt) attempt := by
    intro attempt hattempt hlt
    refine ⟨hbefore attempt hattempt hlt, fun habsent => ?_⟩
    by_contra hlarge
    exact hdelays attempt (by omega)
      (fun earlier hearlier hle => hbefore earlier hearlier (by omega)) habsent
  have hdelay : ∀ attempt, 1 ≤ attempt → attempt < last →
      retryDelay? (stream.response attempt) attempt (stream.jitter attempt) =
        some ((retryDelay? (stream.response attempt) attempt (stream.jitter attempt)).getD 0) := by
    intro attempt hattempt hlt
    obtain ⟨_, delay, heq⟩ := (repeated_iff (stream.jitter attempt)).mp
      (hrepeated attempt hattempt hlt)
    rw [heq, Option.getD_some]
  refine ⟨last, ⟨⟨hone, hfinal⟩, hmin⟩, hbound, _, hdelay, ?_⟩
  obtain ⟨count, rfl⟩ := Nat.exists_eq_add_of_le' hone
  obtain ⟨outcome, hrun, houtcome, _⟩ := runOn_call request
    (fun attempt hattempt hle => hrepeated attempt hattempt (by omega)) fun hnot => hnot.1 hfinal
  rw [hrun, houtcome hfinal (hformed _), Nat.add_sub_cancel, pausesAfter, if_pos hfinal]
  -- every attempt before it is a request and one sleep
  have hevents : attempts settings stream request 1 count =
      (List.range' 1 count).flatMap fun attempt =>
        [.requested request (stream.response attempt), .slept
          ((retryDelay? (stream.response attempt) attempt (stream.jitter attempt)).getD 0)] := by
    refine List.flatMap_congr fun attempt hattempt => ?_
    obtain ⟨hle, hlt⟩ := List.mem_range'_1.mp hattempt
    have hnot := hbefore attempt hle (by omega)
    rw [pausesAfter, if_neg fun hsuccess => hnot (Or.inl hsuccess), if_neg hnot,
      hdelay attempt hle (by omega)]
    rfl
  rw [hevents]

/-- An attempt whose delay cannot be computed ends the call, with an error of its own. -/
theorem outcome_of_not_delaysComputable (request : Request)
    (hdelays : ¬ DelaysComputable settings stream) :
    (runOn stream (getWithRetry settings request 1) .empty).1 = .error .overflowError := by
  have hexists : ∃ attempt, 1025 ≤ attempt ∧
      (∀ earlier, 1 ≤ earlier → earlier ≤ attempt →
        ¬ Final settings (stream.response earlier) earlier) ∧
      (stream.response attempt).retryAfter = .absent := by
    simpa [DelaysComputable] using hdelays
  -- the first such attempt: the ones before it are repeated
  classical
  obtain ⟨hlarge, hnot, habsent⟩ := Nat.find_spec hexists
  obtain ⟨count, hcount⟩ := Nat.exists_eq_add_of_le' (le_trans (by norm_num : 1 ≤ 1025) hlarge)
  have hrepeated : ∀ attempt, 1 ≤ attempt → attempt ≤ count →
      Repeated settings (stream.response attempt) attempt := by
    intro attempt hattempt hle
    refine ⟨hnot attempt hattempt (by omega), fun hnone => ?_⟩
    by_contra hbig
    exact Nat.find_min hexists (by omega : attempt < Nat.find hexists)
      ⟨by omega, fun earlier hearlier hle' => hnot earlier hearlier (by omega), hnone⟩
  rw [hcount] at hlarge hnot habsent
  obtain ⟨outcome, hrun, _, houtcome⟩ := runOn_call request
    hrepeated fun hagain => absurd (hagain.2 habsent) (by omega)
  rw [hrun]
  exact houtcome (hnot _ (by omega) le_rfl)

theorem delaysComputable_of_retriesFaithfully
    (hfaithful : RetriesFaithfully settings stream request) : DelaysComputable settings stream := by
  by_contra hdelays
  obtain ⟨last, _, _, _, _, hrun⟩ := hfaithful
  have hoverflow := outcome_of_not_delaysComputable request hdelays
  rw [hrun, outcomeOf] at hoverflow
  split at hoverflow <;> cases hoverflow

/-- **How often a request is sent.** -/
theorem retriesFaithfully_iff (settings : Settings) (stream : Stream Body) (request : Request)
    (hformed : ∀ k, (stream.response k).WellFormed) :
    RetriesFaithfully settings stream request ↔
      ∀ attempt, 1025 ≤ attempt →
        (∀ earlier, 1 ≤ earlier → earlier ≤ attempt →
          ¬ Final settings (stream.response earlier) earlier) →
        (stream.response attempt).retryAfter ≠ .absent :=
  ⟨delaysComputable_of_retriesFaithfully, retriesFaithfully_of_delaysComputable hformed⟩

/-- An overload that is not explained. -/
def overloaded : Response Unit where
  statusCode := 503
  body := ()

theorem retriesFaithfully_fiveAttempts :
    RetriesFaithfully ⟨5, 10⟩ (always overloaded) .regions := by
  have hformed : overloaded.WellFormed := ⟨by decide, by decide⟩
  refine (retriesFaithfully_iff ⟨5, 10⟩ (always overloaded) .regions
    fun _ => hformed).mpr fun attempt hlarge hnot => ?_
  exact absurd (Or.inr (Or.inr (by simp only; omega))) (hnot attempt (by omega) le_rfl)

/-- With more attempts than there are doublings, a call raises an error that ESI never sent. -/
theorem not_retriesFaithfully_overloaded :
    ¬ RetriesFaithfully ⟨1026, 10⟩ (always overloaded) .regions := by
  intro hfaithful
  refine delaysComputable_of_retriesFaithfully hfaithful 1025 le_rfl (fun earlier _ hle => ?_) rfl
  rintro (hsuccess | hstatus | hattempts)
  · exact absurd hsuccess (by decide : ¬ overloaded.isSuccess)
  · exact hstatus (by decide : overloaded.statusCode ∈ retryableStatusCodes)
  · simp only at hattempts
    omega

end EveBuild.Esi
