import GpuCluster.Gateway.AuthCache

/-! # How large the cache of verdicts grows

A sweep above 1024 entries keeps the fresh ones, however many there are. So the
cache is as large as the number of tokens that are asked about within the
lifetime of a verdict, and nothing limits that.
-/

namespace GpuCluster.Gateway

open Common Foundation

/-! ## Between requests -/

/-- The entry is in, and the sweep comes next. -/
def Phase.isSweeping : Phase → Bool
  | .sweeping _ => true
  | _ => false

namespace GatewayState

/-- Every insert was followed by its sweep. -/
def Settled (g : GatewayState) : Prop := ∀ r ∈ g.requests, r.phase.isSweeping = false

/-- Between requests there are no more entries than the threshold and one. -/
def CacheBounded (g : GatewayState) : Prop := g.Settled → g.cache.list.length ≤ 1025

/-- The entries that a sweep keeps. -/
def freshEntries (g : GatewayState) (now : ℤ) : List CacheEntry :=
  g.cache.list.filter (·.verdict.fresh now)

/-- A sweep with no other one to follow finds at most 1025 fresh entries. -/
def SweepsFew (g : GatewayState) (action : ℤ × GatewayAction) : Prop :=
  ∀ i, action.2 = .request i .sweep →
    (∀ (j : ℕ) (r : Request), j ≠ i → g.requests[j]? = some r → r.phase.isSweeping = false) →
    (g.freshEntries action.1).length ≤ 1025

/-- Requests that wait or are finished have swept. -/
theorem settled_of_atRest {g : GatewayState} (hrest : g.requests.all (·.phase.atRest)) :
    g.Settled := by
  intro r hr
  have hphase := List.all_eq_true.mp hrest r hr
  cases hcase : r.phase with
  | sweeping entry =>
      rw [hcase] at hphase
      cases hphase
  | _ => rfl

theorem settled_iff {g : GatewayState} :
    g.Settled ↔ ∀ (i : ℕ) (r : Request), g.requests[i]? = some r → r.phase.isSweeping = false := by
  constructor
  · intro hsettled i r hr
    exact hsettled r (List.mem_of_getElem? hr)
  · intro hall r hr
    obtain ⟨i, hi⟩ := List.mem_iff_getElem?.mp hr
    exact hall i r hi

end GatewayState

/-! ## One step -/

variable {adminApiKey : Option String} {g next : GatewayState} {now : ℤ} {i : ℕ}
  {r request : Request}

theorem GatewayState.settled_set_iff {cache : KeyedMap CacheEntry.token} {receipts : List Receipt}
    (hr : g.requests[i]? = some r) :
    GatewayState.Settled ⟨cache, g.requests.set i request, now, receipts⟩ ↔
      request.phase.isSweeping = false ∧
        ∀ (j : ℕ) (other : Request), j ≠ i → g.requests[j]? = some other →
          other.phase.isSweeping = false := by
  have hlt : i < g.requests.length := (List.getElem?_eq_some_iff.mp hr).1
  rw [settled_iff]
  constructor
  · intro hall
    refine ⟨hall i request (List.getElem?_set_self hlt), fun j other hne hother => ?_⟩
    exact hall j other ((List.getElem?_set_ne (Ne.symm hne)).trans hother)
  · intro ⟨hrequest, hothers⟩ j other hother
    by_cases hsame : j = i
    · subst hsame
      cases (List.getElem?_set_self hlt).symm.trans hother
      exact hrequest
    · rw [List.getElem?_set_ne (Ne.symm hsame)] at hother
      exact hothers j other hsame hother

theorem GatewayState.length_sweep (hsweep : g.sweep i r now = some next) :
    next.cache.list.length =
      if 1024 < g.cache.list.length then (g.freshEntries now).length
      else g.cache.list.length := by
  unfold sweep at hsweep
  split at hsweep
  next entry hphase =>
    cases hsweep
    dsimp only
    split
    next => rw [KeyedMap.list_retain, freshEntries]
    next => rfl
  next => cases hsweep

/-- A sweep leaves the fresh entries, unless there are too few to sweep. -/
theorem GatewayState.length_step_sweep
    (hstep : g.step adminApiKey now (.request i .sweep) = some next) :
    next.cache.list.length =
      if 1024 < g.cache.list.length then (g.freshEntries now).length
      else g.cache.list.length := by
  simp only [step] at hstep
  split at hstep
  next =>
    obtain ⟨r, -, hsweep⟩ := Option.bind_eq_some_iff.mp hstep
    exact length_sweep (g := { g with clock := now }) hsweep
  next => cases hstep

/-- Only an insert makes a sweep due, and only the sweep itself settles it. -/
theorem StepEffect.quiet {step : RequestStep} {cache : KeyedMap CacheEntry.token}
    {receipts : List Receipt}
    (heffect : StepEffect adminApiKey g now i r step request cache receipts)
    (hinsert : step ≠ .insert) (hsweep : step ≠ .sweep) :
    cache = g.cache ∧ r.phase.isSweeping = false ∧ request.phase.isSweeping = false := by
  cases heffect with
  | insert => exact absurd rfl hinsert
  | sweep => exact absurd rfl hsweep
  | lookup token hphase | hit token entry hphase | miss token entry hphase
  | unanswered token outcome hphase | answered token outcome verdict hphase
  | pass entry cached hphase | refuse entry cached hphase | forward entry key passedAt hphase =>
      exact ⟨rfl, by rw [hphase]; rfl, rfl⟩

theorem GatewayState.cacheBounded_step_iff {action : ℤ × GatewayAction}
    (hbounded : g.CacheBounded) (hstep : g.step adminApiKey action.1 action.2 = some next) :
    next.CacheBounded ↔ g.SweepsFew action := by
  obtain ⟨now, action⟩ := action
  obtain ⟨-, hcases⟩ := step_cases hstep
  rcases hcases with ⟨authorization, rfl, rfl⟩ |
    ⟨i, r, step, request, cache, receipts, rfl, hr, heffect, rfl⟩
  · refine iff_of_true (fun hsettled => ?_) fun i hsweep => by cases hsweep
    exact hbounded fun r hmem => hsettled r (List.mem_append_left _ hmem)
  · by_cases hinsert : step = .insert
    -- the sweep of the new entry is due
    · subst hinsert
      refine iff_of_true (fun hsettled => ?_) fun i hsweep => by cases hsweep
      have hnot := ((settled_set_iff hr).mp hsettled).1
      cases heffect with
      | insert => cases hnot
    · by_cases hsweep : step = .sweep
      · subst hsweep
        have hlength := length_step_sweep hstep
        have hrequest : request.phase.isSweeping = false := by
          cases heffect with
          | sweep => rfl
        constructor
        · intro hafter j hj hothers
          cases hj
          have hle := hafter ((settled_set_iff hr).mpr ⟨hrequest, hothers⟩)
          rw [hlength] at hle
          split at hle
          next => exact hle
          next hfew => exact (List.length_filter_le ..).trans ((not_lt.mp hfew).trans (by decide))
        · intro hfew hsettled
          rw [hlength]
          split
          next => exact hfew i rfl ((settled_set_iff hr).mp hsettled).2
          next hle => exact (not_lt.mp hle).trans (by decide)
      · obtain ⟨rfl, hbefore, -⟩ := heffect.quiet hinsert hsweep
        refine iff_of_true (fun hsettled => hbounded ?_) fun j hj => by
          cases hj
          exact absurd rfl hsweep
        refine settled_iff.mpr fun j other hother => ?_
        by_cases hsame : j = i
        · subst hsame
          cases hr.symm.trans hother
          exact hbefore
        · exact ((settled_set_iff hr).mp hsettled).2 j other hsame hother

/-! ## Every run -/

/-- In every run of requests the cache has at most 1025 entries between requests
exactly when no sweep finds more than 1025 fresh ones. -/
theorem cacheBounded_iff_sweepsFew (adminApiKey : Option String) (start : ℤ)
    (actions : List (ℤ × GatewayAction)) :
    (gateway adminApiKey).Throughout GatewayState.CacheBounded (.initial start) actions ↔
      (gateway adminApiKey).Meets GatewayState.SweepsFew (.initial start) actions := by
  have hkeeps : ∀ g action next, True → (gateway adminApiKey).step g action = some next → True :=
    fun _ _ _ _ _ => trivial
  refine Machine.throughout_iff_meets hkeeps ?_ trivial (fun _ => Nat.zero_le _) actions
  intro g action next _ hbounded hstep
  exact GatewayState.cacheBounded_step_iff hbounded hstep

/-! ## In terms of the traffic -/

/-- The answer is within the lifetime of its verdict. -/
def Receipt.recent (receipt : Receipt) (now : ℤ) : Bool :=
  now - receipt.time < if receipt.ok then seconds 60 else seconds 5

/-- The tokens with a recent answer. -/
def GatewayState.recentTokens (g : GatewayState) (now : ℤ) : List String :=
  ((g.receipts.filter (·.recent now)).map Receipt.token).dedup

/-- A fresh entry has a recent answer behind it, and no two have the same token. -/
theorem Justified.length_freshEntries_le (hg : Justified g) (now : ℤ) :
    (g.freshEntries now).length ≤ (g.recentTokens now).length := by
  have hsubset : (g.freshEntries now).map CacheEntry.token ⊆ g.recentTokens now := by
    intro token htoken
    obtain ⟨entry, hentry, rfl⟩ := List.mem_map.mp htoken
    obtain ⟨hmem, hfresh⟩ := List.mem_filter.mp hentry
    have hreceipt := hg.received entry (.inl (KeyedMap.mem_list.mp hmem))
    refine List.mem_dedup.mpr (List.mem_map.mpr ⟨entry.receipt, ?_, rfl⟩)
    exact List.mem_filter.mpr ⟨hreceipt, hfresh⟩
  have hnodup : ((g.freshEntries now).map CacheEntry.token).Nodup :=
    (List.filter_sublist.map CacheEntry.token).nodup g.cache.list_nodup
  simpa using hnodup.length_le_of_subset hsubset

/-- No sweep comes when more than 1025 tokens have a recent answer. -/
def GatewayState.FewTokens (g : GatewayState) (action : ℤ × GatewayAction) : Prop :=
  ∀ i, action.2 = .request i .sweep → (g.recentTokens action.1).length ≤ 1025

/-- As long as few tokens are asked about at a time, the cache is bounded. -/
theorem cacheBounded_of_fewTokens {adminApiKey : Option String} {start : ℤ}
    {actions : List (ℤ × GatewayAction)}
    (hfew : (gateway adminApiKey).Meets GatewayState.FewTokens (.initial start) actions) :
    (gateway adminApiKey).Throughout GatewayState.CacheBounded (.initial start) actions := by
  have hkeeps : ∀ g action next, Justified g →
      (gateway adminApiKey).step g action = some next → Justified next :=
    fun _ _ _ hg hstep => hg.step hstep
  have hsweeps : (gateway adminApiKey).Meets GatewayState.SweepsFew (.initial start) actions := by
    refine Machine.Meets.imp hkeeps ?_ (justified_initial start) hfew
    intro g action next hg _ hfew i hsweep _
    exact (hg.length_freshEntries_le action.1).trans (hfew i hsweep)
  refine (Machine.throughout_iff_meets hkeeps ?_ (justified_initial start)
    (fun _ => Nat.zero_le _) actions).mpr hsweeps
  intro g action next _ hbounded hstep
  exact GatewayState.cacheBounded_step_iff hbounded hstep

/-! ## Strangers -/

/-- A header of visible characters is read as it is. -/
theorem extractBearer_bearer {token : String} (hne : token ≠ "")
    (hvisible : ∀ c ∈ token.toList, 0x20 < c.toNat ∧ c.toNat < 0x7f) :
    extractBearer (bearer token) = some token := by
  have htext : headerText ("Bearer " ++ token) = some ("Bearer " ++ token) := by
    refine if_pos ?_
    rw [String.toList_append, List.all_append, Bool.and_eq_true]
    refine ⟨by decide, List.all_eq_true.mpr fun c hc => ?_⟩
    have hbounds := hvisible c hc
    simp [hbounds.1.le, hbounds.2]
  have hspace : ∀ c ∈ token.toList, isWhitespace c = false := by
    intro c hc
    have hbounds := hvisible c hc
    simp only [isWhitespace, List.mem_cons, List.not_mem_nil]
    simp
    omega
  rw [extractBearer, bearer, Option.bind_some, htext, Option.bind_some, stripPrefix?_append,
    Option.some_or, Option.map_some, trim_eq_self hspace, Option.filter_some_pos]
  simpa using hne

/-- A key that was never issued, one for each number. -/
def strangerToken (k : ℕ) : String := "mgc_" ++ .ofList (List.replicate (12 + k) 'x')

theorem strangerToken_injective {k other : ℕ} (hsame : strangerToken k = strangerToken other) :
    k = other := by
  have hlength := congrArg (fun token => token.toList.length) hsame
  simp only [strangerToken, String.toList_append, String.toList_ofList, List.length_append,
    List.length_replicate] at hlength
  omega

/-- Its request at time 0, which the backend refuses. -/
def asks (k : ℕ) : List (ℤ × GatewayAction) :=
  (0, .arrive (bearer (strangerToken k))) :: fetched k 0 (verified false)

theorem arrivedPhase_stranger (k : ℕ) (now : ℤ) :
    arrivedPhase (bearer (strangerToken k)) now = .looking (strangerToken k) := by
  have hstart : "mgc_".toList.isPrefixOf (strangerToken k).toList = true := by
    rw [strangerToken, String.toList_append, List.isPrefixOf_iff_prefix]
    exact List.prefix_append ..
  have hsize : 16 ≤ (strangerToken k).utf8ByteSize := by
    have hfirst : "mgc_".utf8ByteSize = 4 := by decide
    have hone : 'x'.utf8Size = 1 := by decide
    rw [strangerToken, String.utf8ByteSize_append, utf8ByteSize_replicate, hfirst, hone]
    omega
  have hformed : looksLikeKey (strangerToken k) = true := by
    rw [looksLikeKey, hstart, Bool.true_and, decide_eq_true hsize]
  have hne : strangerToken k ≠ "" := by
    intro hempty
    rw [hempty] at hstart
    exact absurd hstart (by decide)
  have hvisible : ∀ c ∈ (strangerToken k).toList, 0x20 < c.toNat ∧ c.toNat < 0x7f := by
    have hfirst : ∀ c ∈ "mgc_".toList, 0x20 < c.toNat ∧ c.toNat < 0x7f := by simp
    intro c hc
    rw [strangerToken, String.toList_append, List.mem_append] at hc
    rcases hc with hc | hc
    · exact hfirst c hc
    · rw [String.toList_ofList] at hc
      obtain rfl := List.eq_of_mem_replicate hc
      decide
  rw [arrivedPhase, extractBearer_bearer hne hvisible]
  exact if_pos hformed

section Last

variable (cache : KeyedMap CacheEntry.token) (requests : List Request) (r : Request)
  (receipts : List Receipt)

/-- The request that came last makes a step. -/
theorem step_last (adminApiKey : Option String) (now : ℤ) (step : RequestStep) :
    (gateway adminApiKey).step ⟨cache, requests ++ [r], now, receipts⟩
        (now, .request requests.length step) =
      GatewayState.requestStep ⟨cache, requests ++ [r], now, receipts⟩ adminApiKey
        requests.length r now step := by
  have hlast : (requests ++ [r])[requests.length]? = some r := List.getElem?_concat_length
  have hallows : GatewayState.Allows ⟨cache, requests ++ [r], now, receipts⟩ now := .inl rfl
  simp only [gateway, GatewayState.step, if_pos hallows, hlast, Option.bind_some]

theorem setPhase_last (now : ℤ) (before : Request) (phase : Phase) :
    GatewayState.setPhase ⟨cache, requests ++ [before], now, receipts⟩ requests.length r phase =
      ⟨cache, requests ++ [{ r with phase }], now, receipts⟩ := by
  simp [GatewayState.setPhase]

end Last

/-- A request that is not in the cache, run to its end. -/
theorem exec_asks {cache : KeyedMap CacheEntry.token} {requests : List Request}
    {receipts : List Receipt} (hnew : cache.get (strangerToken requests.length) = none) :
    let entry : CacheEntry :=
      ⟨strangerToken requests.length, ⟨false, none, none, none, 0⟩, requests.length⟩
    (gateway (some "admin")).exec ⟨cache, requests, 0, receipts⟩ (asks requests.length) =
      some ⟨if 1024 < (cache.insert entry).list.length then
          (cache.insert entry).retain (·.verdict.fresh 0) else cache.insert entry,
        requests ++ [⟨bearer (strangerToken requests.length), some (verified false),
          .refused .invalidKey none 0⟩], 0,
        ⟨requests.length, strangerToken requests.length, 0, false⟩ :: receipts⟩ := by
  intro entry
  have hphase := arrivedPhase_stranger requests.length 0
  have hverdict : verifyWithMgmt (some "admin") (verified false) 0 =
      some ⟨false, none, none, none, 0⟩ := rfl
  have harrive : (gateway (some "admin")).step ⟨cache, requests, 0, receipts⟩
      (0, .arrive (bearer (strangerToken requests.length))) =
        some ⟨cache, requests ++ [⟨bearer (strangerToken requests.length), none,
          .looking (strangerToken requests.length)⟩], 0, receipts⟩ := by
    have hallows : GatewayState.Allows ⟨cache, requests, 0, receipts⟩ 0 := .inl rfl
    simp only [gateway, GatewayState.step, if_pos hallows, GatewayState.arrive, hphase]
  rw [asks, Machine.exec_cons harrive, fetched]
  simp only [Machine.exec, step_last, GatewayState.requestStep, GatewayState.lookup, setPhase_last,
    hnew, Option.bind_some, GatewayState.check, GatewayState.respond, hverdict,
    GatewayState.insert, GatewayState.sweep, GatewayState.applyVerdict, Bool.false_eq_true,
    if_false, entry]

/-- A gateway at time 0 that has answered this many strangers. -/
structure Filled (g : GatewayState) (n : ℕ) : Prop where
  clock : g.clock = 0
  requests : g.requests.length = n
  atRest : g.requests.all (·.phase.atRest)
  entries : g.cache.list.length = n
  fresh : ∀ entry ∈ g.cache.list, entry.verdict.fresh 0
  strangers : ∀ entry ∈ g.cache.list, ∃ k < n, entry.token = strangerToken k

/-- The sweep keeps what the strangers have filled in. -/
theorem Filled.asks {n : ℕ} (hfilled : Filled g n) :
    ∃ next, (gateway (some "admin")).exec g (asks n) = some next ∧ Filled next (n + 1) := by
  obtain ⟨cache, requests, clock, receipts⟩ := g
  obtain ⟨rfl, rfl, hrest, hentries, hfresh, hstrangers⟩ := hfilled
  have hnew : cache.get (strangerToken requests.length) = none := by
    by_contra hfound
    obtain ⟨entry, hentry⟩ := Option.ne_none_iff_exists'.mp hfound
    have htoken : entry.token = strangerToken requests.length := KeyedMap.key_of_get hentry
    obtain ⟨k, hk, hsame⟩ := hstrangers entry (KeyedMap.mem_list.mpr (htoken ▸ hentry))
    exact absurd (strangerToken_injective (htoken.symm.trans hsame)) (Nat.ne_of_gt hk)
  refine ⟨_, exec_asks hnew, ?_⟩
  generalize hentry : CacheEntry.mk (strangerToken requests.length)
    ⟨false, none, none, none, 0⟩ requests.length = entry
  have htoken : entry.token = strangerToken requests.length := by rw [← hentry]
  have hfreshNew : entry.verdict.fresh 0 = true := by
    rw [← hentry]
    rfl
  have hlist : (cache.insert entry).list = entry :: cache.list :=
    KeyedMap.list_insert_of_get_none (htoken ▸ hnew)
  have hkept : (if 1024 < (cache.insert entry).list.length then
      (cache.insert entry).retain (·.verdict.fresh 0) else cache.insert entry).list =
        entry :: cache.list := by
    split
    next =>
      rw [KeyedMap.list_retain, hlist, List.filter_eq_self]
      exact List.forall_mem_cons.mpr ⟨hfreshNew, hfresh⟩
    next => exact hlist
  refine ⟨rfl, ?_, ?_, ?_, ?_, ?_⟩
  · exact List.length_append
  · rw [List.all_append, hrest]
    rfl
  · rw [hkept, List.length_cons, hentries]
  · rw [hkept]
    exact List.forall_mem_cons.mpr ⟨hfreshNew, hfresh⟩
  · rw [hkept]
    refine List.forall_mem_cons.mpr ⟨⟨requests.length, Nat.lt_succ_self _, htoken⟩, ?_⟩
    intro stored hmem
    obtain ⟨k, hk, hsame⟩ := hstrangers stored hmem
    exact ⟨k, Nat.lt_succ_of_lt hk, hsame⟩

/-- There is no bound: strangers fill the cache to any size. -/
theorem strangers_fill (n : ℕ) :
    ∃ g, (gateway (some "admin")).exec (.initial 0) ((List.range n).flatMap asks) = some g ∧
      Filled g n := by
  induction n with
  | zero =>
      have hnone : ∀ entry, entry ∉ (GatewayState.initial 0).cache.list :=
        fun _ => List.not_mem_nil
      exact ⟨.initial 0, rfl, rfl, rfl, rfl, rfl, fun entry hmem => absurd hmem (hnone entry),
        fun entry hmem => absurd hmem (hnone entry)⟩
  | succ n ih =>
      obtain ⟨g, hexec, hfilled⟩ := ih
      obtain ⟨next, hasks, hnext⟩ := hfilled.asks
      refine ⟨next, ?_, hnext⟩
      rw [List.range_succ, List.flatMap_append, Machine.exec_append hexec, List.flatMap_singleton]
      exact hasks

theorem strangers_exceed {n : ℕ} (hmany : 1025 < n) :
    (∃ g, (gateway (some "admin")).exec (.initial 0) ((List.range n).flatMap asks) = some g ∧
      g.requests.all (·.phase.atRest) ∧ g.cache.list.length = n) ∧
    ¬(gateway (some "admin")).Throughout GatewayState.CacheBounded (.initial 0)
      ((List.range n).flatMap asks) := by
  obtain ⟨g, hexec, hfilled⟩ := strangers_fill n
  refine ⟨⟨g, hexec, hfilled.atRest, hfilled.entries⟩, fun hbounded => ?_⟩
  have hle := hbounded.last hexec (GatewayState.settled_of_atRest hfilled.atRest)
  exact absurd (hfilled.entries.symm.trans_le hle) (Nat.not_le_of_lt hmany)

/-- After 1026 answers there are 1026 entries. -/
theorem manyStrangers_exceed :
    (∃ g, (gateway (some "admin")).exec (.initial 0) ((List.range 1026).flatMap asks) = some g ∧
      g.requests.all (·.phase.atRest) ∧ g.cache.list.length = 1026) ∧
    ¬(gateway (some "admin")).Throughout GatewayState.CacheBounded (.initial 0)
      ((List.range 1026).flatMap asks) :=
  strangers_exceed (by decide)

end GpuCluster.Gateway
