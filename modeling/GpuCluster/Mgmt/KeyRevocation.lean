import GpuCluster.Mgmt.KeyLifecycle

/-! # Revocation is final

A key that was revoked or purged is never accepted again: no call clears
`revoked_at`, and a purged row's token is not minted a second time.
-/

namespace GpuCluster.Mgmt

open Common Foundation

/-- The event that takes a row out of use at a time. -/
def KeyEvent.Ends (event : KeyEvent) (time : ℤ) (id : String) : Prop :=
  event = .revoked time id ∨ event = .purged time id

/-- The row of a live creation of the token was revoked or purged at this time. -/
def EndedAt (events : List KeyEvent) (token : String) (time : ℤ) : Prop :=
  ∃ newer older event id, events = newer ++ event :: older ∧ event.Ends time id ∧
    Issued older id token

theorem endedAt_cons {event : KeyEvent} {events : List KeyEvent} {token : String} {time : ℤ} :
    EndedAt (event :: events) token time ↔
      (∃ id, event.Ends time id ∧ Issued events id token) ∨ EndedAt events token time := by
  constructor
  · intro ⟨newer, older, ending, id, hevents, hends, hissued⟩
    cases newer with
    | nil =>
        rw [List.nil_append, List.cons.injEq] at hevents
        obtain ⟨rfl, rfl⟩ := hevents
        exact .inl ⟨id, hends, hissued⟩
    | cons head rest =>
        rw [List.cons_append, List.cons.injEq] at hevents
        obtain ⟨rfl, rfl⟩ := hevents
        exact .inr ⟨rest, older, ending, id, rfl, hends, hissued⟩
  · intro hcase
    rcases hcase with ⟨id, hends, hissued⟩ | ⟨newer, older, ending, id, rfl, hends, hissued⟩
    · exact ⟨[], events, event, id, rfl, hends, hissued⟩
    · exact ⟨event :: newer, older, ending, id, rfl, hends, hissued⟩

theorem EndedAt.created {events : List KeyEvent} {token : String} {time : ℤ}
    (hended : EndedAt events token time) : ∃ created id, .created created id token ∈ events := by
  obtain ⟨newer, older, event, id, rfl, -, hissued⟩ := hended
  obtain ⟨created, hmem⟩ := hissued.mem
  exact ⟨created, id, List.mem_append_right _ (List.mem_cons_of_mem _ hmem)⟩

theorem KeyEvent.Ends.time_eq {event : KeyEvent} {time other : ℤ} {id another : String}
    (hends : event.Ends time id) (hother : event.Ends other another) : time = other := by
  rcases hends with rfl | rfl <;> rcases hother with hsame | hsame <;> cases hsame <;> rfl

theorem KeyEvent.Ends.id_eq {event : KeyEvent} {time other : ℤ} {id another : String}
    (hends : event.Ends time id) (hother : event.Ends other another) : id = another := by
  rcases hends with rfl | rfl <;> rcases hother with hsame | hsame <;> cases hsame <;> rfl

/-- A call ends keys at its own time only. -/
theorem KeyMove.endedAt {argon : Argon2} {s next : KeyStore} {now : ℤ}
    (hmove : KeyMove argon now s next) {token : String} {time : ℤ}
    (hended : EndedAt next.events token time) : time = now ∨ EndedAt s.events token time := by
  cases hmove with
  | created row other salt audit bytes hnew =>
      rcases endedAt_cons.mp hended with ⟨id, hcase | hcase, -⟩ | hold
      · cases hcase
      · cases hcase
      · exact .inr hold
  | revoked row audit hrow =>
      rcases endedAt_cons.mp hended with ⟨id, hends, -⟩ | hold
      · exact .inl (hends.time_eq (.inl rfl))
      · exact .inr hold
  | purged id audit hrow =>
      rcases endedAt_cons.mp hended with ⟨id, hends, -⟩ | hold
      · exact .inl (hends.time_eq (.inr rfl))
      · exact .inr hold
  | changed | kept => exact .inr hended

/-- A token that was ended is not that of a usable row, and ended in the past. -/
def EndsFinally (s : KeyStore) : Prop :=
  ∀ token time, EndedAt s.events token time → time ≤ s.clock ∧
    ∀ id row, Issued s.events id token → s.keys.get id = some row → row.revokedAt ≠ none

theorem endsFinally_initial (start : ℤ) : EndsFinally (.initial start) := by
  intro token time hended
  obtain ⟨_, _, hmem⟩ := hended.created
  cases hmem

/-- A new token was never ended: it would have been minted before. -/
theorem EndsFinally.create {argon : Argon2} {s next : KeyStore} {now : ℤ} (hs : Sound argon s)
    (hends : EndsFinally s) (htime : s.clock ≤ now) {row : ApiKeyRow} {minted : String}
    (hnew : s.keys.get row.id = none) (hkeys : next.keys = s.keys.insert row)
    (hclock : next.clock = now) (hevents : next.events = .created now row.id minted :: s.events)
    (hdistinct : (mintedTokens next.events).Nodup) : EndsFinally next := by
  intro token time hended
  rw [hevents] at hended hdistinct
  rw [hclock, hkeys, hevents]
  have hold : EndedAt s.events token time := by
    rcases endedAt_cons.mp hended with ⟨id, hcase | hcase, -⟩ | hold
    · cases hcase
    · cases hcase
    · exact hold
  obtain ⟨hpast, hdead⟩ := hends token time hold
  refine ⟨hpast.trans htime, fun id stored hissued hget => ?_⟩
  rcases issued_cons.mp hissued with ⟨at_, hsame⟩ | ⟨-, hissuedOld⟩
  · cases hsame
    obtain ⟨created, id, hmem⟩ := hold.created
    have hminted : minted ∈ mintedTokens s.events := List.mem_filterMap.mpr ⟨_, hmem, rfl⟩
    exact absurd hminted (List.nodup_cons.mp hdistinct).1
  · obtain ⟨kept, hkept, -⟩ := hs.row_of_issued id token hissuedOld
    have hne : id ≠ row.id := by
      intro hid
      rw [hid, hnew] at hkept
      cases hkept
    rw [KeyedMap.get_insert_ne _ _ hne] at hget
    exact hdead id stored hissuedOld hget

/-- An event that ends a key leaves no usable row under its id. -/
theorem EndsFinally.end {s next : KeyStore} {now : ℤ} (hends : EndsFinally s)
    (htime : s.clock ≤ now) {event : KeyEvent} {ended : String} (hevent : event.Ends now ended)
    (hdead : ∀ row, next.keys.get ended = some row → row.revokedAt ≠ none)
    (hothers : ∀ id ≠ ended, next.keys.get id = s.keys.get id) (hclock : next.clock = now)
    (hevents : next.events = event :: s.events) (hdistinct : (mintedTokens next.events).Nodup) :
    EndsFinally next := by
  intro token time htoken
  rw [hevents] at htoken hdistinct
  rw [hclock, hevents]
  rcases endedAt_cons.mp htoken with ⟨id, hends, hissuedEnd⟩ | hold
  · obtain rfl := hends.time_eq hevent
    refine ⟨le_rfl, fun other stored hissued hget => ?_⟩
    -- distinct tokens: this creation is the one whose row ends
    obtain ⟨created, hmem⟩ := hissuedEnd.mem
    obtain ⟨createdOther, hmemOther⟩ := hissued.mem
    obtain ⟨-, rfl⟩ := created_unique hdistinct (List.mem_cons_of_mem _ hmem) hmemOther
    obtain rfl := hends.id_eq hevent
    exact hdead stored hget
  · obtain ⟨hpast, hlater⟩ := hends token time hold
    refine ⟨hpast.trans htime, fun id stored hissued hget => ?_⟩
    rcases issued_cons.mp hissued with ⟨at_, hsame⟩ | ⟨-, hissuedOld⟩
    · rcases hevent with rfl | rfl <;> cases hsame
    · by_cases hid : id = ended
      · exact hdead stored (hid ▸ hget)
      · rw [hothers id hid] at hget
        exact hlater id stored hissuedOld hget

theorem EndsFinally.move {argon : Argon2} {s next : KeyStore} {now : ℤ} (hs : Sound argon s)
    (hends : EndsFinally s) (htime : s.clock ≤ now) (hmove : KeyMove argon now s next)
    (hdistinct : (mintedTokens next.events).Nodup) : EndsFinally next := by
  cases hmove with
  | created row token salt audit bytes hnew =>
      exact hends.create hs htime hnew rfl rfl rfl hdistinct
  | changed row next audit hrow hid hstart hhash hrevoked =>
      intro token time hended
      obtain ⟨hpast, hdead⟩ := hends token time hended
      refine ⟨hpast.trans htime, fun id stored hissued hget => ?_⟩
      rw [KeyedMap.get_insert] at hget
      split at hget
      next hcase =>
        cases hget
        rw [hrevoked]
        exact hdead row.id row (by rwa [← hid, ← hcase]) hrow
      next => exact hdead id stored hissued hget
  | revoked row audit hrow =>
      refine hends.end htime (.inl rfl) (fun stored hget => ?_)
        (fun id hne => s.keys.get_insert_ne _ hne) rfl rfl hdistinct
      rw [KeyedMap.get_insert, if_pos rfl] at hget
      cases hget
      simp
  | purged id audit hrow =>
      refine hends.end htime (.inr rfl) (fun stored hget => ?_)
        (fun other hne => (s.keys.get_erase id other).trans (if_neg hne)) rfl rfl hdistinct
      rw [KeyedMap.get_erase, if_pos rfl] at hget
      cases hget
  | kept =>
      intro token time hended
      obtain ⟨hpast, hdead⟩ := hends token time hended
      exact ⟨hpast.trans htime, hdead⟩

/-- An ended token is refused. -/
theorem verify_refuses_ended {argon : Argon2} (hexact : argon.Exact) {s : KeyStore}
    (hs : Sound argon s) (hends : EndsFinally s) {text : String} {now : ℤ}
    {rows : List ApiKeyRow} (hrows : rows.Perm (candidates s.keys (storedPrefixOf (trim text))))
    (hok : (verify argon rows now text).ok = true) (time : ℤ) :
    ¬EndedAt s.events (trim text) time := by
  intro hended
  cases hverified : verifiedRow argon rows now text with
  | none =>
      rw [verify, hverified] at hok
      cases hok
  | some row =>
      obtain ⟨hissued, hget, hlive, -⟩ := issued_of_verifiedRow hexact hs hrows hverified
      exact (hends _ time hended).2 row.id row hissued hget hlive

/-! ## From one answer to a later one -/

/-- A live creation of the token has a row that is not revoked, or the key was ended. -/
def KeyStore.KeepsOrEnds (s : KeyStore) (token : String) : Prop :=
  (∃ id row, Issued s.events id token ∧ s.keys.get id = some row ∧ row.revokedAt = none) ∨
    ∃ time, EndedAt s.events token time

theorem KeyStore.Usable.keepsOrEnds {s : KeyStore} {token : String} {now : ℤ}
    (husable : s.Usable token now) : s.KeepsOrEnds token := by
  obtain ⟨id, row, hissued, hget, hlive⟩ := husable
  exact .inl ⟨id, row, hissued, hget, hlive.1⟩

/-- Only an end takes a key away. -/
theorem KeyMove.keepsOrEnds {argon : Argon2} {s next : KeyStore} {now : ℤ}
    (hmove : KeyMove argon now s next) {token : String} (hkeeps : s.KeepsOrEnds token) :
    next.KeepsOrEnds token := by
  rcases hkeeps with ⟨id, row, hissued, hget, hlive⟩ | ⟨time, hended⟩
  · cases hmove with
    | created made minted salt audit bytes hnew =>
        have hne : id ≠ made.id := by
          rintro rfl
          cases hnew.symm.trans hget
        refine .inl ⟨id, row, issued_cons.mpr (.inr ⟨fun _ h => (by cases h), hissued⟩), ?_, hlive⟩
        exact (s.keys.get_insert_ne _ hne).trans hget
    | changed old changed audit hrow hid hstart hhash hrevoked =>
        by_cases hsame : id = changed.id
        · subst hsame
          cases hrow.symm.trans (hid ▸ hget)
          exact .inl ⟨_, changed, hissued, s.keys.get_insert_self changed, hrevoked.trans hlive⟩
        · exact .inl ⟨id, row, hissued, (s.keys.get_insert_ne _ hsame).trans hget, hlive⟩
    | revoked ended audit hrow =>
        by_cases hsame : id = ended.id
        · exact .inr ⟨now, endedAt_cons.mpr (.inl ⟨id, .inl (hsame ▸ rfl), hissued⟩)⟩
        · refine .inl ⟨id, row, issued_cons.mpr (.inr ⟨fun _ h => (by cases h), hissued⟩), ?_,
            hlive⟩
          exact (s.keys.get_insert_ne { ended with revokedAt := some now } hsame).trans hget
    | purged ended audit hrow =>
        by_cases hsame : id = ended
        · exact .inr ⟨now, endedAt_cons.mpr (.inl ⟨id, .inr (hsame ▸ rfl), hissued⟩)⟩
        · refine .inl ⟨id, row, issued_cons.mpr (.inr ⟨fun _ h => ?_, hissued⟩), ?_, hlive⟩
          · cases h
            exact hsame rfl
          · exact (s.keys.get_erase ended id).trans ((if_neg hsame).trans hget)
    | kept => exact .inl ⟨id, row, hissued, hget, hlive⟩
  · refine .inr ⟨time, ?_⟩
    cases hmove with
    | created | revoked | purged => exact endedAt_cons.mpr (.inr hended)
    | changed | kept => exact hended

end GpuCluster.Mgmt
