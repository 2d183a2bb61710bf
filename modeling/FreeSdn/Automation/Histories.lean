import FreeSdn.Automation.Isolation

/-! Histories in which the events that a rule does not match leave those that it does match alone,
although they pass its gates first. -/

namespace FreeSdn.Automation

open FreeSdn.Lib

variable {py : Python} {rule : AutomationRule} {event : Event} {f g k : RuleKeys} {later : List Event}

/-! ### The condition on a history -/

/-- No key of a cooldown is left at that instant. -/
def RuleKeys.Rested (k : RuleKeys) (now : Time) : Prop := ∀ t, k.cooldown = some t → t ≤ now

variable (py rule) in
/-- An event that finds the keys `k` takes neither the identifier nor the cooldown from a later event
that meets the rule's conditions. -/
def Spares (k : RuleKeys) (event : Event) (later : List Event) : Prop :=
  ∀ m ∈ later, meets py rule m.data = true →
    (∀ id, event.id = some id → id ≠ "" → m.id ≠ some id) ∧
    (0 < rule.cooldownSeconds → k.Rested event.instant →
      event.instant + seconds rule.cooldownSeconds ≤ m.instant)

variable (py rule) in
/-- In the run from `k`, each event that does not meet the rule's conditions spares the later ones, and
each that does finds room in the hour. -/
def Spared : List Event → RuleKeys → Prop
  | [], _ => True
  | event :: events, k =>
    (if meets py rule event.data then (k.recent event.instant).length < rule.maxTriggersPerHour
      else Spares py rule k event events) ∧
    Spared events (takeTurn py rule event k).2

/-! ### Two runs -/

variable (py rule) in
/-- What the keys of a run have in common with those of the run without the unmatched events, as far as
the events to come can tell. -/
structure Alike (f g : RuleKeys) (later : List Event) : Prop where
  claims : ∀ m ∈ later, meets py rule m.data = true → ∀ id, m.id = some id → id ≠ "" →
    f.claims.filter (·.1 = id) = g.claims.filter (·.1 = id)
  rested : ∀ m ∈ later, meets py rule m.data = true → (f.Rested m.instant ↔ g.Rested m.instant)
  attempts : ∀ m ∈ later, meets py rule m.data = true →
    (g.recent m.instant).Sublist (f.recent m.instant)
  past : ∀ m ∈ later, ∀ t ∈ f.attempts, t ≤ m.instant

theorem Alike.refl (past : ∀ m ∈ later, ∀ t ∈ k.attempts, t ≤ m.instant) : Alike py rule k k later :=
  ⟨fun _ _ _ _ _ _ => rfl, fun _ _ _ => Iff.rfl, fun _ _ _ => List.Sublist.refl _, past⟩

theorem Alike.tail (h : Alike py rule f g (event :: later)) : Alike py rule f g later :=
  ⟨fun m mem => h.claims m (List.mem_cons_of_mem _ mem),
    fun m mem => h.rested m (List.mem_cons_of_mem _ mem),
    fun m mem => h.attempts m (List.mem_cons_of_mem _ mem),
    fun m mem => h.past m (List.mem_cons_of_mem _ mem)⟩

theorem taken_iff {id : String} {now : Time} :
    (k.claims.any fun c => c.1 == id && decide (now < c.2)) =
      (k.claims.filter (·.1 = id)).any fun c => decide (now < c.2) := by
  rw [List.any_filter]
  rfl

theorem cooling_iff {now : Time} : (k.cooldown.any fun t => decide (now < t)) = false ↔
    k.Rested now := by
  unfold RuleKeys.Rested
  cases k.cooldown <;> simp

/-- A claim of the two runs for the same matching event. -/
theorem Alike.claim_both (h : Alike py rule f g (event :: later)) (met : meets py rule event.data) :
    (eventClaim rule event f).1 = (eventClaim rule event g).1 ∧
      Alike py rule (eventClaim rule event f).2 (eventClaim rule event g).2 (event :: later) := by
  unfold eventClaim
  split
  · exact ⟨rfl, h⟩
  · rename_i id named
    split
    · exact ⟨rfl, h⟩
    · rename_i some_
      have same := h.claims event List.mem_cons_self met id named some_
      have added : Alike py rule
          { f with claims := (id, event.instant + seconds 300) :: f.claims }
          { g with claims := (id, event.instant + seconds 300) :: g.claims } (event :: later) := by
        refine ⟨fun m mem met other here full => ?_, h.rested, h.attempts, h.past⟩
        dsimp only
        rw [List.filter_cons, List.filter_cons, h.claims m mem met other here full]
      unfold gate RuleKeys.claim
      rw [taken_iff, taken_iff, same]
      split <;> split_ifs <;> first | exact ⟨rfl, h⟩ | exact ⟨rfl, added⟩

/-- The claim of an unmatched event, which only the first run has. -/
theorem Alike.claim_one (h : Alike py rule f g (event :: later)) (spares : Spares py rule k event later) :
    Alike py rule (eventClaim rule event f).2 g later := by
  unfold eventClaim
  split
  · exact h.tail
  · rename_i id named
    split
    · exact h.tail
    · rename_i some_
      have added : Alike py rule { f with claims := (id, event.instant + seconds 300) :: f.claims } g
          later := by
        refine ⟨fun m mem met other here full => ?_, h.tail.rested, h.tail.attempts, h.tail.past⟩
        have apart : id ≠ other := fun eq => (spares m mem met).1 id named some_ (eq ▸ here)
        dsimp only
        rw [List.filter_cons_of_neg (by simpa using apart), h.tail.claims m mem met other here full]
      unfold gate RuleKeys.claim
      split <;> split_ifs <;> first | exact h.tail | exact added

theorem Alike.cooldown_both (h : Alike py rule f g (event :: later)) (met : meets py rule event.data) :
    (checkCooldown rule event f).1 = (checkCooldown rule event g).1 ∧
      Alike py rule (checkCooldown rule event f).2 (checkCooldown rule event g).2
        (event :: later) := by
  unfold checkCooldown
  split
  · have same : (f.cooldown.any fun t => decide (event.instant < t)) =
        g.cooldown.any fun t => decide (event.instant < t) := by
      rw [Bool.eq_iff_iff, ← not_iff_not, Bool.not_eq_true, Bool.not_eq_true, cooling_iff, cooling_iff]
      exact h.rested event List.mem_cons_self met
    have added : Alike py rule
        { f with cooldown := some (event.instant + seconds rule.cooldownSeconds) }
        { g with cooldown := some (event.instant + seconds rule.cooldownSeconds) }
        (event :: later) :=
      ⟨h.claims, fun _ _ _ => Iff.rfl, h.attempts, h.past⟩
    unfold gate RuleKeys.rest
    rw [same]
    split <;> split_ifs <;> first | exact ⟨rfl, h⟩ | exact ⟨rfl, added⟩
  · exact ⟨rfl, h⟩

theorem Alike.cooldown_one (h : Alike py rule f g later) (spares : Spares py rule f event later)
    (sorted : ∀ m ∈ later, event.instant ≤ m.instant) :
    Alike py rule (checkCooldown rule event f).2 g later := by
  unfold checkCooldown
  split
  · rename_i positive
    by_cases rested : f.Rested event.instant
    · have added : Alike py rule
          { f with cooldown := some (event.instant + seconds rule.cooldownSeconds) } g later := by
        refine ⟨h.claims, fun m mem met => ?_, h.attempts, h.past⟩
        have before : f.Rested m.instant := fun t here => (rested t here).trans (sorted m mem)
        refine iff_of_true ?_ ((h.rested m mem met).mp before)
        intro t here
        obtain rfl := Option.some.inj here
        exact (spares m mem met).2 positive rested
      unfold gate RuleKeys.rest
      split <;> split_ifs <;> first | exact h | exact added
    · unfold gate RuleKeys.rest
      rw [← cooling_iff, Bool.not_eq_false] at rested
      rw [if_pos rested]
      split
      · exact h
      · split_ifs <;> exact h
  · exact h

theorem eventClaim_attempts : (eventClaim rule event k).2.attempts = k.attempts := by
  unfold eventClaim gate RuleKeys.claim
  split
  · rfl
  · split
    · rfl
    · split <;> split_ifs <;> rfl

theorem checkCooldown_attempts : (checkCooldown rule event k).2.attempts = k.attempts := by
  unfold checkCooldown gate RuleKeys.rest
  split
  · split <;> split_ifs <;> rfl
  · rfl

/-- What an attempt at `now` leaves of those before it for a later instant. -/
theorem recent_later {now t : Time} (le : now ≤ t) :
    k.recent t = if t < k.attemptsUntil then (k.recent now).filter (t - seconds 3600 < ·) else [] := by
  unfold RuleKeys.recent
  split
  · rename_i alive
    rw [if_pos (le.trans_lt alive), List.filter_filter]
    refine List.filter_congr fun u _ => ?_
    by_cases inside : t - seconds 3600 < u
    · have before : now - seconds 3600 < u := lt_of_le_of_lt (Int.sub_le_sub_right le _) inside
      simp [inside, before]
    · simp [inside]
  · rfl

/-- The keys after an attempt that is counted. -/
def RuleKeys.counted (k : RuleKeys) (now : Time) : RuleKeys :=
  { k with attempts := now :: k.recent now, attemptsUntil := now + seconds 3700 }

theorem counted_recent (k : RuleKeys) (now t : Time) : (k.counted now).recent t =
    if t < now + seconds 3700 then (now :: k.recent now).filter (t - seconds 3600 < ·) else [] := rfl

theorem mem_recent {now t : Time} (mem : t ∈ k.recent now) : t ∈ k.attempts := by
  unfold RuleKeys.recent at mem
  split at mem
  · exact List.mem_of_mem_filter mem
  · cases mem

/-- Both runs count an attempt of a matching event. -/
theorem Alike.attempt_both (h : Alike py rule f g (event :: later)) (met : meets py rule event.data)
    (sorted : ∀ m ∈ later, event.instant ≤ m.instant)
    (room : (f.recent event.instant).length < rule.maxTriggersPerHour) (trouble : Option Bool) :
    (gate trouble f (f.attempt rule.maxTriggersPerHour event.instant)).1 =
        (gate trouble g (g.attempt rule.maxTriggersPerHour event.instant)).1 ∧
      Alike py rule (gate trouble f (f.attempt rule.maxTriggersPerHour event.instant)).2
        (gate trouble g (g.attempt rule.maxTriggersPerHour event.instant)).2 later := by
  have fewer := h.attempts event List.mem_cons_self met
  have room' : (g.recent event.instant).length < rule.maxTriggersPerHour :=
    lt_of_le_of_lt (Int.ofNat_le.mpr fewer.length_le) room
  have added : Alike py rule (f.counted event.instant) (g.counted event.instant) later := by
    refine ⟨h.tail.claims, h.tail.rested, fun m mem met => ?_, fun m mem t here => ?_⟩
    · rw [counted_recent, counted_recent]
      split
      · exact (fewer.cons_cons event.instant).filter _
      · exact List.Sublist.refl _
    · rcases List.mem_cons.mp here with rfl | before
      · exact sorted m mem
      · exact h.tail.past m mem t (mem_recent before)
  unfold gate RuleKeys.attempt
  rw [if_pos room, if_pos room']
  split
  · exact ⟨rfl, added⟩
  · split
    · exact ⟨rfl, added⟩
    · exact ⟨rfl, h.tail⟩

/-- The attempt of an unmatched event, counted or not, takes none from the hours to come. -/
theorem Alike.attempt_one (h : Alike py rule f g later)
    (sorted : ∀ m ∈ later, event.instant ≤ m.instant) (past : ∀ t ∈ f.attempts, t ≤ event.instant)
    (trouble : Option Bool) :
    Alike py rule (gate trouble f (f.attempt rule.maxTriggersPerHour event.instant)).2 g later := by
  have added : Alike py rule (f.counted event.instant) g later := by
    refine ⟨h.claims, h.rested, fun m mem met => (h.attempts m mem met).trans ?_, fun m mem t here => ?_⟩
    · rw [recent_later (sorted m mem), counted_recent]
      split
      · split
        · exact (List.sublist_cons_self _ _).filter _
        · -- More than an hour later no attempt counts.
          rename_i late
          rw [List.filter_eq_nil_iff.mpr fun t here inside => ?_]
          have early := past t (mem_recent here)
          have inside := of_decide_eq_true inside
          have hour : seconds 3600 ≤ seconds 3700 := by decide
          have le : event.instant + seconds 3600 ≤ m.instant :=
            (Int.add_le_add_left hour _).trans (not_lt.mp late)
          exact absurd (lt_of_lt_of_le inside early) (not_lt.mpr (Int.le_sub_right_of_add_le le))
      · exact List.nil_sublist _
    · rcases List.mem_cons.mp here with rfl | before
      · exact sorted m mem
      · exact h.past m mem t (mem_recent before)
  have pruned : Alike py rule { f with attempts := f.recent event.instant } g later := by
    refine ⟨h.claims, h.rested, fun m mem met => (h.attempts m mem met).trans ?_,
      fun m mem t here => h.past m mem t (mem_recent here)⟩
    rw [recent_later (sorted m mem)]
    exact List.Sublist.refl _
  unfold gate RuleKeys.attempt
  split_ifs <;> split <;> (try split) <;> first | exact added | exact pruned | exact h

/-! ### Turns -/

/-- A matching event that finds room takes the same turn in both runs. -/
theorem Alike.turn_both (h : Alike py rule f g (event :: later)) (met : meets py rule event.data)
    (sorted : ∀ m ∈ later, event.instant ≤ m.instant)
    (room : (f.recent event.instant).length < rule.maxTriggersPerHour) :
    (takeTurn py rule event f).1 = (takeTurn py rule event g).1 ∧
      Alike py rule (takeTurn py rule event f).2 (takeTurn py rule event g).2 later := by
  obtain ⟨sameClaim, claimed⟩ := h.claim_both met
  obtain ⟨sameRest, cooled⟩ := claimed.cooldown_both met
  have room' : ((checkCooldown rule event (eventClaim rule event f).2).2.recent
      event.instant).length < rule.maxTriggersPerHour := by
    rwa [checkCooldown_snd, eventClaim_snd.2]
  obtain ⟨sameRate, counted⟩ := cooled.attempt_both met sorted room' (event.trouble rule.id .rate)
  unfold takeTurn checkThrottle
  dsimp only
  rw [← sameClaim, ← sameRest]
  split_ifs <;> simp_all [h.tail, claimed.tail, cooled.tail]

/-- An unmatched event that spares the later ones takes its turn in one run only. -/
theorem Alike.turn_one (h : Alike py rule f g (event :: later))
    (spares : Spares py rule f event later) (sorted : ∀ m ∈ later, event.instant ≤ m.instant) :
    Alike py rule (takeTurn py rule event f).2 g later := by
  have claimed := h.claim_one spares
  have spares' : Spares py rule (eventClaim rule event f).2 event later := by
    intro m mem met
    obtain ⟨apart, waited⟩ := spares m mem met
    refine ⟨apart, fun positive rested => waited positive ?_⟩
    unfold RuleKeys.Rested at rested ⊢
    rwa [eventClaim_snd.1] at rested
  have cooled := claimed.cooldown_one spares' sorted
  have past : ∀ t ∈ (checkCooldown rule event (eventClaim rule event f).2).2.attempts,
      t ≤ event.instant := by
    rw [checkCooldown_attempts, eventClaim_attempts]
    exact h.past event List.mem_cons_self
  have counted := cooled.attempt_one sorted past (event.trouble rule.id .rate)
  unfold takeTurn checkThrottle
  dsimp only
  split_ifs <;> first | exact h.tail | exact claimed | exact cooled | exact counted

/-! ### Histories -/

theorem mem_executed_turn {redis : Redis}
    (own : event.organizationId = some rule.organizationId) :
    rule.id ∈ (processEvent py event [rule] redis).executed ↔
      (takeTurn py rule event (redis rule.id)).1 = .ok true := by
  simp [mem_processEvent_one, Reaches, own, takeTurn_true]

theorem Alike.history {events : List Event} {now redis : Redis}
    (h : Alike py rule (now rule.id) (redis rule.id) events)
    (own : ∀ e ∈ events, e.organizationId = some rule.organizationId)
    (sorted : events.Pairwise (fun e later => e.instant ≤ later.instant))
    (spared : Spared py rule events (now rule.id)) :
    ((events.zip (history py rule events now)).filter (fun p => meets py rule p.1.data)).map
        Prod.snd =
      history py rule (events.filter fun e => meets py rule e.data) redis := by
  induction events generalizing now redis with
  | nil => rfl
  | cons event events ih =>
    obtain ⟨first, rest⟩ := spared
    obtain ⟨before, sorted⟩ := List.pairwise_cons.mp sorted
    obtain ⟨home, own⟩ := List.forall_mem_cons.mp own
    rw [Automation.history, List.zip_cons_cons]
    rw [← processEvent_keys home] at rest
    by_cases met : meets py rule event.data = true
    · rw [if_pos met] at first
      obtain ⟨same, next⟩ := h.turn_both met before first
      rw [← processEvent_keys home, ← processEvent_keys home] at next
      rw [List.filter_cons_of_pos (by exact met), List.filter_cons_of_pos (by exact met),
        Automation.history, List.map_cons]
      dsimp only
      congr 1
      · rw [decide_eq_decide, mem_executed_turn home, mem_executed_turn home, same]
      · exact ih next own sorted rest
    · rw [if_neg met] at first
      have next := h.turn_one first before
      rw [← processEvent_keys home] at next
      rw [List.filter_cons_of_neg (by exact met), List.filter_cons_of_neg (by exact met)]
      exact ih next own sorted rest

/-- On a history in which no unmatched event takes the cooldown, the identifier or the last place of
the hour before a matching one, the rule is executed on the same events as without them. -/
theorem spared_unaffected (py : Python) (rule : AutomationRule) (redis : Redis) (events : List Event)
    (own : ∀ e ∈ events, e.organizationId = some rule.organizationId)
    (sorted : events.Pairwise (fun e later => e.instant ≤ later.instant))
    (past : ∀ e ∈ events, ∀ t ∈ (redis rule.id).attempts, t ≤ e.instant)
    (spared : Spared py rule events (redis rule.id)) :
    ((events.zip (history py rule events redis)).filter (fun p => meets py rule p.1.data)).map
        Prod.snd =
      history py rule (events.filter fun e => meets py rule e.data) redis :=
  (Alike.refl past).history own sorted spared

/-- The cooldown that the first event takes is over when the second one comes. -/
example : Spared plain severityRule [alarm "e1" (.int 1) 0, alarm "e2" (.int 9) (seconds 70)]
    .empty := by
  refine ⟨?_, ?_, trivial⟩
  · rw [if_neg (by decide)]
    rintro m mem -
    obtain rfl := List.mem_singleton.mp mem
    exact ⟨fun id same _ other => absurd (same.trans other.symm) (by decide), fun _ _ => by decide⟩
  · rw [if_pos (by decide)]
    decide

end FreeSdn.Automation
