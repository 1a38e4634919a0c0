import GpuCluster.Mgmt.ApiKeys

/-! # What verification knows of a key's life

Every row was made by a creation that has not been purged since, and keeps that
creation's prefix and hash. `verify` therefore finds the row of a token by its
prefix, and the columns it reads there are the current ones.
-/

namespace GpuCluster.Mgmt

open Common Foundation

/-! ## Live creations -/

/-- A creation returned this id and token, and the row has not been purged since. -/
def Issued (events : List KeyEvent) (id token : String) : Prop :=
  ∃ newer older time, events = newer ++ .created time id token :: older ∧
    ∀ time, .purged time id ∉ newer

theorem issued_cons {event : KeyEvent} {events : List KeyEvent} {id token : String} :
    Issued (event :: events) id token ↔
      (∃ time, event = .created time id token) ∨
        (∀ time, event ≠ .purged time id) ∧ Issued events id token := by
  constructor
  · intro ⟨newer, older, time, hevents, hkept⟩
    cases newer with
    | nil =>
        rw [List.nil_append, List.cons.injEq] at hevents
        exact .inl ⟨time, hevents.1⟩
    | cons head rest =>
        rw [List.cons_append, List.cons.injEq] at hevents
        obtain ⟨rfl, rfl⟩ := hevents
        refine .inr ⟨fun at_ hsame => hkept at_ (hsame ▸ List.mem_cons_self ..), ?_⟩
        exact ⟨rest, older, time, rfl, fun at_ hmem => hkept at_ (List.mem_cons_of_mem _ hmem)⟩
  · intro hcase
    rcases hcase with ⟨time, rfl⟩ | ⟨hnot, newer, older, time, rfl, hkept⟩
    · exact ⟨[], events, time, rfl, fun _ hmem => by cases hmem⟩
    · refine ⟨event :: newer, older, time, rfl, fun at_ hmem => ?_⟩
      rcases List.mem_cons.mp hmem with hsame | hmem
      · exact hnot at_ hsame.symm
      · exact hkept at_ hmem

theorem Issued.mem {events : List KeyEvent} {id token : String} (hissued : Issued events id token) :
    ∃ time, .created time id token ∈ events := by
  obtain ⟨newer, older, time, rfl, -⟩ := hissued
  exact ⟨time, List.mem_append_right _ (List.mem_cons_self ..)⟩

/-- The tokens of all creations, newest first. -/
def mintedTokens (events : List KeyEvent) : List String :=
  events.filterMap fun
    | .created _ _ token => some token
    | _ => none

/-- When tokens are distinct, a token has one id. -/
theorem created_unique {events : List KeyEvent} (hdistinct : (mintedTokens events).Nodup)
    {time otherTime : ℤ} {id other token : String} (hmem : .created time id token ∈ events)
    (hother : .created otherTime other token ∈ events) : time = otherTime ∧ id = other := by
  induction events with
  | nil => cases hmem
  | cons event rest ih =>
      have hin : ∀ {time : ℤ} {id : String}, .created time id token ∈ rest →
          token ∈ mintedTokens rest := by
        intro time id hmem
        exact List.mem_filterMap.mpr ⟨_, hmem, rfl⟩
      have hrest : (mintedTokens rest).Nodup := by
        cases event <;> first | exact hdistinct | exact (List.nodup_cons.mp hdistinct).2
      rcases List.mem_cons.mp hmem with rfl | hold
      · rcases List.mem_cons.mp hother with hsame | hotherOld
        · cases hsame
          exact ⟨rfl, rfl⟩
        · exact absurd (hin hotherOld) (List.nodup_cons.mp hdistinct).1
      · rcases List.mem_cons.mp hother with rfl | hotherOld
        · exact absurd (hin hold) (List.nodup_cons.mp hdistinct).1
        · exact ih hrest hold hotherOld

/-! ## What a call does -/

/-- One call on the table: it makes a key, changes columns of a row other than
its prefix and hash, removes a row, or leaves the table alone. -/
inductive KeyMove (argon : Argon2) (now : ℤ) (s : KeyStore) : KeyStore → Prop
  | created (row : ApiKeyRow) (token salt : String) (audit : List AuditRow)
      (bytes : Vector UInt8 32) (hnew : s.keys.get row.id = none) (htoken : token = tokenOf bytes)
      (hstart : row.storedPrefix = storedPrefixOf token)
      (hhash : argon.hashPassword token salt = .ok row.hash) :
      KeyMove argon now s
        ⟨s.keys.insert row, audit, now, .created now row.id token :: s.events⟩
  | changed (row next : ApiKeyRow) (audit : List AuditRow) (hrow : s.keys.get row.id = some row)
      (hid : next.id = row.id) (hstart : next.storedPrefix = row.storedPrefix)
      (hhash : next.hash = row.hash) (hrevoked : next.revokedAt = row.revokedAt) :
      KeyMove argon now s ⟨s.keys.insert next, audit, now, s.events⟩
  | revoked (row : ApiKeyRow) (audit : List AuditRow) (hrow : s.keys.get row.id = some row) :
      KeyMove argon now s ⟨s.keys.insert { row with revokedAt := some now }, audit, now,
        .revoked now row.id :: s.events⟩
  | purged (id : String) (audit : List AuditRow) (hrow : (s.keys.get id).isSome) :
      KeyMove argon now s ⟨s.keys.erase id, audit, now, .purged now id :: s.events⟩
  | kept : KeyMove argon now s { s with clock := now }

theorem createKey_ok {argon : Argon2} {keys next : ApiKeyTable} {now : ℤ} {mint : Mint}
    {violation : String} {req : CreateKeyRequest} {created : CreateKeyResponse}
    (hok : createKey argon keys now mint violation req = .ok (created, next)) :
    ∃ row bytes, created.id = row.id ∧ created.token = tokenOf bytes ∧ keys.get row.id = none ∧
      row.storedPrefix = storedPrefixOf created.token ∧
      argon.hashPassword created.token mint.salt = .ok row.hash ∧ next = keys.insert row := by
  simp only [createKey, bind, Except.bind, pure, Except.pure, throw, throwThe,
    MonadExceptOf.throw] at hok
  repeat' split at hok
  all_goals try cases hok
  -- the one path without a refusal
  next bytes hbytes _ hash hmapped hfree =>
    have hhash : argon.hashPassword (tokenOf bytes) mint.salt = .ok hash := by
      cases hcase : argon.hashPassword (tokenOf bytes) mint.salt with
      | error => rw [hcase] at hmapped; cases hmapped
      | ok made => rw [hcase] at hmapped; cases hmapped; rfl
    have hnone : keys.get mint.id = none := by simpa using hfree
    -- the row is the one that is inserted
    refine ⟨_, bytes, ?_, rfl, ?_, ?_, ?_, rfl⟩
    · rfl
    · exact hnone
    · rfl
    · exact hhash

theorem revokeKey_ok {keys next : ApiKeyTable} {now : ℤ} {id : String}
    (hok : revokeKey keys now id = .ok next) :
    ∃ row, keys.get id = some row ∧ row.revokedAt = none ∧
      next = keys.insert { row with revokedAt := some now } := by
  unfold revokeKey at hok
  split at hok
  next row hrow =>
    split at hok
    next hlive =>
      cases hok
      exact ⟨row, hrow, hlive, rfl⟩
    next => cases hok
  next => cases hok

theorem updateKey_ok {keys next : ApiKeyTable} {now : ℤ} {id : String} {req : UpdateKeyRequest}
    {answer : ApiKeyRow} (hok : updateKey keys now id req = .ok (answer, next)) :
    ∃ row, keys.get id = some row ∧ next = keys.insert (req.set now row) := by
  simp only [updateKey, bind, Except.bind, pure, Except.pure, throw, throwThe,
    MonadExceptOf.throw] at hok
  split at hok
  next => cases hok
  next =>
    cases hrow : keys.get id with
    | none => rw [hrow] at hok; cases hok
    | some row => rw [hrow] at hok; cases hok; exact ⟨row, rfl, rfl⟩

theorem purgeKey_ok {keys next : ApiKeyTable} {id : String} (hok : purgeKey keys id = .ok next) :
    (keys.get id).isSome ∧ next = keys.erase id := by
  unfold purgeKey at hok
  split at hok
  next row hrow =>
    cases hok
    exact ⟨by rw [hrow]; rfl, rfl⟩
  next => cases hok

theorem revoke_moves (argon : Argon2) (s : KeyStore) (now : ℤ) (id : String) (audited : Bool) :
    KeyMove argon now s ({ s with clock := now }.revoke now id audited) := by
  unfold KeyStore.revoke
  split
  next keys hok =>
    obtain ⟨row, hrow, -, rfl⟩ := revokeKey_ok hok
    obtain rfl := KeyedMap.key_of_get hrow
    exact .revoked row _ hrow
  next => exact .kept

theorem call_moves {argon : Argon2} {s next : KeyStore} {now : ℤ} {call : KeyCall}
    (hcall : { s with clock := now }.call argon now call = some next) :
    KeyMove argon now s next := by
  cases call with
  | create mint violation req audited =>
      obtain rfl := Option.some.inj hcall
      unfold KeyStore.create
      split
      next created keys hok =>
        obtain ⟨row, bytes, hid, htoken, hnew, hstart, hhash, rfl⟩ := createKey_ok hok
        rw [hid]
        exact .created row created.token mint.salt _ bytes hnew htoken hstart hhash
      next => exact .kept
  | update id req audited =>
      cases hcall
      unfold KeyStore.update
      split
      next answer keys hok =>
        obtain ⟨row, hrow, rfl⟩ := updateKey_ok hok
        obtain rfl := KeyedMap.key_of_get hrow
        exact .changed row (req.set now row) _ hrow rfl rfl rfl rfl
      next => exact .kept
  | revoke id audited =>
      cases hcall
      exact revoke_moves argon s now id audited
  | delete id purge audited =>
      cases hcall
      unfold KeyStore.delete
      split
      next =>
        split
        next keys hok =>
          obtain ⟨hrow, rfl⟩ := purgeKey_ok hok
          exact .purged id _ hrow
        next => exact .kept
      next => exact revoke_moves argon s now id audited
  | verify text rows touched =>
      simp only [KeyStore.call] at hcall
      split at hcall
      next =>
        obtain rfl := Option.some.inj hcall
        unfold KeyStore.verified
        split
        next row _ =>
          cases touched with
          | false => exact .kept
          | true =>
              simp only [touch, KeyedMap.modify, if_true]
              split
              next stored hstored =>
                have hid := KeyedMap.key_of_get hstored
                exact .changed stored _ _ (hid ▸ hstored) rfl rfl rfl rfl
              next => exact .kept
        next => exact .kept
      next => cases hcall

theorem KeyMove.clock {argon : Argon2} {now : ℤ} {s next : KeyStore}
    (hmove : KeyMove argon now s next) : next.clock = now := by
  cases hmove <;> rfl

/-- The rows are those of the creations not purged, and keep what a creation
stored of its token. -/
structure Sound (argon : Argon2) (s : KeyStore) : Prop where
  row_of_issued : ∀ id token, Issued s.events id token → ∃ row, s.keys.get id = some row ∧
    row.storedPrefix = storedPrefixOf token ∧
    ∃ salt, argon.hashPassword token salt = .ok row.hash
  issued_of_row : ∀ id row, s.keys.get id = some row → ∃ token, Issued s.events id token
  minted : ∀ time id token, .created time id token ∈ s.events →
    ∃ bytes, token = tokenOf bytes

theorem sound_initial (argon : Argon2) (start : ℤ) : Sound argon (.initial start) where
  row_of_issued _ _ hissued := by
    obtain ⟨time, hmem⟩ := hissued.mem
    cases hmem
  issued_of_row id row hrow := by
    rw [KeyStore.initial, KeyedMap.get_empty] at hrow
    cases hrow
  minted _ _ _ hmem := by cases hmem

/-- A row that is replaced keeps its token. -/
theorem Sound.replace {argon : Argon2} {s : KeyStore} (hs : Sound argon s) (row next : ApiKeyRow)
    (hrow : s.keys.get row.id = some row) (hid : next.id = row.id)
    (hstart : next.storedPrefix = row.storedPrefix) (hhash : next.hash = row.hash)
    {events : List KeyEvent}
    (hissued : ∀ id token, Issued events id token ↔ Issued s.events id token)
    (hminted : ∀ time id token, .created time id token ∈ events →
      .created time id token ∈ s.events) (audit : List AuditRow) (now : ℤ) :
    Sound argon ⟨s.keys.insert next, audit, now, events⟩ where
  row_of_issued id token hlive := by
    obtain ⟨stored, hget, hsame, salt, hmade⟩ := hs.row_of_issued id token
      ((hissued id token).mp hlive)
    by_cases hcase : id = next.id
    · subst hcase
      rw [hid, hrow, Option.some.injEq] at hget
      subst hget
      exact ⟨next, s.keys.get_insert_self next, hstart.trans hsame, salt, hhash ▸ hmade⟩
    · exact ⟨stored, (s.keys.get_insert_ne next hcase).trans hget, hsame, salt, hmade⟩
  issued_of_row id stored hget := by
    simp only [hissued]
    rw [KeyedMap.get_insert] at hget
    split at hget
    next hcase =>
      rw [hcase, hid]
      exact hs.issued_of_row row.id row hrow
    next => exact hs.issued_of_row id stored hget
  minted time id token hmem := hs.minted time id token (hminted time id token hmem)

theorem Sound.move {argon : Argon2} {s next : KeyStore} {now : ℤ} (hs : Sound argon s)
    (hmove : KeyMove argon now s next) : Sound argon next := by
  cases hmove with
  | created row token salt audit bytes hnew htoken hstart hhash =>
      -- no creation of this id is live, since no row has it
      have hfresh : ∀ other, ¬Issued s.events row.id other := by
        intro other hissued
        obtain ⟨stored, hget, -⟩ := hs.row_of_issued row.id other hissued
        rw [hnew] at hget
        cases hget
      refine ⟨fun id other hissued => ?_, fun id stored hget => ?_, fun time id other hmem => ?_⟩
      · rcases issued_cons.mp hissued with ⟨time, hsame⟩ | ⟨-, hold⟩
        · cases hsame
          exact ⟨row, s.keys.get_insert_self row, hstart, salt, hhash⟩
        · obtain ⟨stored, hget, hrest⟩ := hs.row_of_issued id other hold
          have hne : id ≠ row.id := fun hid => hfresh other (hid ▸ hold)
          exact ⟨stored, (s.keys.get_insert_ne row hne).trans hget, hrest⟩
      · rw [KeyedMap.get_insert] at hget
        split at hget
        next hid => exact ⟨token, issued_cons.mpr (.inl ⟨now, by rw [hid]⟩)⟩
        next =>
          obtain ⟨other, hold⟩ := hs.issued_of_row id stored hget
          exact ⟨other, issued_cons.mpr (.inr ⟨(fun _ hsame => by cases hsame), hold⟩)⟩
      · rcases List.mem_cons.mp hmem with hsame | hold
        · cases hsame
          exact ⟨bytes, htoken⟩
        · exact hs.minted time id other hold
  | changed row next audit hrow hid hstart hhash =>
      exact hs.replace row next hrow hid hstart hhash (fun _ _ => .rfl) (fun _ _ _ => id) audit now
  | revoked row audit hrow =>
      refine hs.replace row { row with revokedAt := some now } hrow rfl rfl rfl
        (fun id token => ?_) (fun time id token hmem => ?_) audit now
      · rw [issued_cons]
        simp
      · simpa using hmem
  | purged id audit hrow =>
      refine ⟨fun other token hissued => ?_, fun other stored hget => ?_,
        fun time other token hmem => ?_⟩
      · rcases issued_cons.mp hissued with ⟨time, hsame⟩ | ⟨hkept, hold⟩
        · cases hsame
        · have hne : other ≠ id := fun hcase => hkept now (hcase ▸ rfl)
          obtain ⟨stored, hget, hrest⟩ := hs.row_of_issued other token hold
          exact ⟨stored, by rw [KeyedMap.get_erase, if_neg hne, hget], hrest⟩
      · rw [KeyedMap.get_erase] at hget
        split at hget
        next => cases hget
        next hne =>
          obtain ⟨token, hold⟩ := hs.issued_of_row other stored hget
          refine ⟨token, issued_cons.mpr (.inr ⟨fun time hsame => ?_, hold⟩)⟩
          cases hsame
          exact hne rfl
      · rcases List.mem_cons.mp hmem with hsame | hold
        · cases hsame
        · exact hs.minted time other token hold
  | kept => exact ⟨hs.row_of_issued, hs.issued_of_row, hs.minted⟩

theorem apiKeys_moves {argon : Argon2} {s next : KeyStore} {action : ℤ × KeyCall}
    (hstep : (apiKeys argon).step s action = some next) :
    s.clock ≤ action.1 ∧ KeyMove argon action.1 s next := by
  simp only [apiKeys] at hstep
  split at hstep
  next htime => exact ⟨htime, call_moves hstep⟩
  next => cases hstep

theorem sound_of_reachable {argon : Argon2} {s : KeyStore} (hreach : (apiKeys argon).Reachable s) :
    Sound argon s := by
  apply hreach.invariant
  · intro state hinit
    obtain ⟨start, rfl⟩ := hinit
    exact sound_initial argon start
  · intro state action next hs hstep
    exact hs.move (apiKeys_moves hstep).2

/-! ## Verification -/

/-- A key that can be used at this time. -/
def ApiKeyRow.Live (row : ApiKeyRow) (now : ℤ) : Prop :=
  row.revokedAt = none ∧ ∀ expiry ∈ row.expiresAt, now ≤ expiry

/-- The token is that of a creation whose row is there and can be used. -/
def KeyStore.Usable (s : KeyStore) (token : String) (now : ℤ) : Prop :=
  ∃ id row, Issued s.events id token ∧ s.keys.get id = some row ∧ row.Live now

/-- The loop does not skip the row, and the hash accepts the token. -/
def accepts (argon : Argon2) (token : String) (now : ℤ) (row : ApiKeyRow) : Bool :=
  row.revokedAt.isNone && !row.expiresAt.any (· < now) &&
    (argon.parse row.hash).any (argon.verifyPassword token)

theorem firstMatch_eq_find (argon : Argon2) (token : String) (now : ℤ) (rows : List ApiKeyRow) :
    firstMatch argon token now rows = rows.find? (accepts argon token now) := by
  induction rows with
  | nil => rfl
  | cons c rest ih =>
      rw [List.find?_cons, firstMatch, ih, accepts]
      cases c.revokedAt with
      | some => rfl
      | none =>
          cases c.expiresAt.any (· < now) with
          | true => rfl
          | false =>
              cases argon.parse c.hash with
              | none => rfl
              | some phc =>
                  cases hverify : argon.verifyPassword token phc <;> simp [hverify]

/-- A row made from a token is accepted with that token as long as it is live. -/
theorem accepts_iff {argon : Argon2} (hexact : argon.Exact) {row : ApiKeyRow}
    {token salt : String} (hhash : argon.hashPassword token salt = .ok row.hash) (other : String)
    (now : ℤ) : accepts argon other now row ↔ row.Live now ∧ other = token := by
  obtain ⟨phc, hparse, hverify⟩ := hexact token salt row.hash hhash
  have hexpired : row.expiresAt.any (· < now) = false ↔ ∀ expiry ∈ row.expiresAt, now ≤ expiry := by
    cases row.expiresAt <;> simp
  simp only [accepts, hparse, Option.any_some, Bool.and_eq_true, hverify, Option.isNone_iff_eq_none,
    Bool.not_eq_true', hexpired, ApiKeyRow.Live]

theorem wellFormedToken_tokenOf (bytes : Vector UInt8 32) : wellFormedToken (tokenOf bytes) := by
  have hlength : 47 ≤ (tokenOf bytes).utf8ByteSize := by
    have hchars := length_le_utf8ByteSize (tokenPrefix.toList ++ base64Url bytes.toList)
    rw [List.length_append, base64Url_length, Vector.length_toList] at hchars
    exact hchars
  have hstart : tokenPrefix.toList.isPrefixOf (tokenOf bytes).toList := by
    rw [tokenOf, String.toList_ofList, List.isPrefixOf_iff_prefix]
    exact List.prefix_append ..
  have hlong : storedPrefixLen + 4 ≤ (tokenOf bytes).utf8ByteSize := by
    rw [storedPrefixLen]
    omega
  rw [wellFormedToken, hstart, Bool.true_and]
  exact decide_eq_true hlong

section Answers

variable {argon : Argon2} {s : KeyStore} {text : String} {now : ℤ} {rows : List ApiKeyRow}
  (hexact : argon.Exact) (hs : Sound argon s)
  (hrows : rows.Perm (candidates s.keys (storedPrefixOf (trim text))))

include hexact hs hrows

/-- An accepted row is that of a live creation of the presented token. -/
theorem issued_of_verifiedRow {row : ApiKeyRow}
    (hrow : verifiedRow argon rows now text = some row) :
    Issued s.events row.id (trim text) ∧ s.keys.get row.id = some row ∧ row.Live now := by
  simp only [verifiedRow] at hrow
  split at hrow
  next =>
    rw [firstMatch_eq_find] at hrow
    have hmem := hrows.mem_iff.mp (List.mem_of_find?_eq_some hrow)
    have hget : s.keys.get row.id = some row := KeyedMap.mem_list.mp (List.mem_filter.mp hmem).1
    obtain ⟨token, hissued⟩ := hs.issued_of_row row.id row hget
    obtain ⟨stored, hstored, -, salt, hhash⟩ := hs.row_of_issued row.id token hissued
    cases hstored.symm.trans hget
    obtain ⟨hlive, hsame⟩ := (accepts_iff hexact hhash (trim text) now).mp (List.find?_some hrow)
    exact ⟨hsame ▸ hissued, hget, hlive⟩
  next => cases hrow

/-- The row of a live creation of the presented token is accepted. -/
theorem verifiedRow_of_issued (hdistinct : (mintedTokens s.events).Nodup) {id : String}
    {row : ApiKeyRow} (hissued : Issued s.events id (trim text))
    (hget : s.keys.get id = some row) (hlive : row.Live now) :
    verifiedRow argon rows now text = some row := by
  obtain ⟨time, hcreated⟩ := hissued.mem
  obtain ⟨bytes, htoken⟩ := hs.minted time id (trim text) hcreated
  obtain ⟨stored, hstored, hstart, salt, hhash⟩ := hs.row_of_issued id (trim text) hissued
  cases hstored.symm.trans hget
  have hfound : (verifiedRow argon rows now text).isSome := by
    have hformed : wellFormedToken (trim text) := htoken ▸ wellFormedToken_tokenOf bytes
    have hlist : row ∈ s.keys.list :=
      KeyedMap.mem_list.mpr ((KeyedMap.key_of_get hget).symm ▸ hget)
    have hmem : row ∈ rows :=
      hrows.mem_iff.mpr (List.mem_filter.mpr ⟨hlist, by simpa using hstart⟩)
    rw [verifiedRow, if_pos hformed, firstMatch_eq_find, List.find?_isSome]
    exact ⟨row, hmem, (accepts_iff hexact hhash (trim text) now).mpr ⟨hlive, rfl⟩⟩
  obtain ⟨found, hverified⟩ := Option.isSome_iff_exists.mp hfound
  -- tokens are distinct, so the accepted row is this one
  obtain ⟨hother, hgetFound, -⟩ := issued_of_verifiedRow hexact hs hrows hverified
  obtain ⟨otherTime, hcreatedOther⟩ := hother.mem
  obtain ⟨-, hid⟩ := created_unique hdistinct hcreated hcreatedOther
  rw [← hid, hget, Option.some.injEq] at hgetFound
  rw [hverified, hgetFound]

theorem verify_ok_iff (hdistinct : (mintedTokens s.events).Nodup) :
    (verify argon rows now text).ok = true ↔ s.Usable (trim text) now := by
  constructor
  · intro hok
    cases hverified : verifiedRow argon rows now text with
    | none =>
        rw [verify, hverified] at hok
        cases hok
    | some row => exact ⟨row.id, row, issued_of_verifiedRow hexact hs hrows hverified⟩
  · intro ⟨id, row, hissued, hget, hlive⟩
    rw [verify, verifiedRow_of_issued hexact hs hrows hdistinct hissued hget hlive]
    rfl

end Answers

/-- After any sequence of calls, `verify` accepts exactly the tokens of
creations whose row is there, not revoked and not expired, and answers with the
row's current columns. -/
theorem verify_ok_iff_live {argon : Argon2} (hexact : argon.Exact) {s : KeyStore}
    (hreach : (apiKeys argon).Reachable s) (hdistinct : (mintedTokens s.events).Nodup)
    (text : String) (now : ℤ) {rows : List ApiKeyRow}
    (hrows : rows.Perm (candidates s.keys (storedPrefixOf (trim text)))) :
    ((verify argon rows now text).ok = true ↔ ∃ id row, Issued s.events id (trim text) ∧
      s.keys.get id = some row ∧ row.Live now) ∧
    ∀ id row, Issued s.events id (trim text) → s.keys.get id = some row → row.Live now →
      verify argon rows now text =
        { ok := true, keyId := some row.id, name := some row.name, scope := some row.scope } := by
  have hs := sound_of_reachable hreach
  refine ⟨verify_ok_iff hexact hs hrows hdistinct, fun id row hissued hget hlive => ?_⟩
  rw [verify, verifiedRow_of_issued hexact hs hrows hdistinct hissued hget hlive]
  rfl

/-- A library whose hashes show the password. -/
def plainHash : Argon2 where
  Phc := String
  hashPassword token _ := .ok token
  parse hash := some hash
  verifyPassword token phc := token == phc

theorem plainHash_exact : plainHash.Exact := by
  intro token salt hash hmade
  cases hmade
  exact ⟨token, rfl, fun other => beq_iff_eq⟩

/-- A new key is accepted with white space around it, under its trimmed name. -/
theorem verify_fresh_key :
    let bytes : Vector UInt8 32 := .replicate 32 0
    let mint : Mint := ⟨some bytes, "salt", "k"⟩
    ∃ s, (apiKeys plainHash).exec (.initial 0)
        [(0, .create mint "" ⟨" laptop ", none, some 60⟩ true)] = some s ∧
      verify plainHash (candidates s.keys (storedPrefixOf (tokenOf bytes))) (seconds 60)
        (" " ++ tokenOf bytes) = ⟨true, some "k", some "laptop", some "inference"⟩ := by
  intro bytes mint
  have htrim : trim (" " ++ tokenOf bytes) = tokenOf bytes := by decide +kernel
  have hname : trim " laptop " = "laptop" := by decide +kernel
  let row : ApiKeyRow := {
    id := "k", hash := tokenOf bytes, scope := "inference", name := "laptop"
    storedPrefix := storedPrefixOf (tokenOf bytes), createdAt := 0, lastUsedAt := none
    expiresAt := some (seconds 60), revokedAt := none }
  let created : CreateKeyResponse :=
    ⟨"k", tokenOf bytes, storedPrefixOf (tokenOf bytes), "laptop", "inference", some (seconds 60)⟩
  have hcreate : createKey plainHash .empty 0 mint "" ⟨" laptop ", none, some 60⟩ =
      .ok (created, KeyedMap.empty.insert row) := by
    simp only [createKey, hname]
    rfl
  let s : KeyStore := ⟨KeyedMap.empty.insert row, [createKeyAudit created], 0,
    [.created 0 "k" (tokenOf bytes)]⟩
  have hstep : (apiKeys plainHash).step (.initial 0)
      (0, .create mint "" ⟨" laptop ", none, some 60⟩ true) = some s := by
    change some (KeyStore.create _ plainHash 0 mint "" _ true) = some s
    simp only [KeyStore.create, KeyStore.initial, hcreate]
    rfl
  refine ⟨s, by rw [Machine.exec, hstep]; rfl, ?_⟩
  have hrows : (candidates s.keys (storedPrefixOf (tokenOf bytes))).Perm
      (candidates s.keys (storedPrefixOf (trim (" " ++ tokenOf bytes)))) := by
    rw [htrim]
  have hissued : Issued s.events "k" (trim (" " ++ tokenOf bytes)) := by
    rw [htrim]
    exact ⟨[], [], 0, rfl, fun _ hmem => by cases hmem⟩
  have hanswer := verify_ok_iff_live plainHash_exact (.step (.init ⟨0, rfl⟩) hstep)
    (List.nodup_singleton _) (" " ++ tokenOf bytes) (seconds 60) hrows
  exact hanswer.2 "k" row hissued (KeyedMap.get_insert_self _ row) ⟨rfl, by decide⟩

end GpuCluster.Mgmt
