import PdMasking.Config
import PdMasking.Fallback

/-!
# PdMasking.Retry — repeating a request after `StoreUnavailableError`

The primary is a map whose calls may time out before or after taking effect; there is no other failure, the
fallback is empty and nobody else writes.  To a request this looks like a `lossy` map (`serveOp_lossy`): an
operation may fail whether or not it took effect, and a successful one may report on its own earlier effect.

`process_lossy` is the run of one attempt over a lossy map: it fails with the store as before the request or
as after it, or it gives the answer of a failure-free run.  `retry_is_safe` is the client that repeats the
request.
-/

namespace PdMasking

/-! ### The lossy map -/

section Lossy

/-- What an operation on a lossy map answers and leaves behind. -/
def lossy : Prog.OpSpec StoreOp StoreOp.Res MapStore := fun op s r s' =>
  (r = .error (.storeUnavailable true) ∧ (s' = s ∨ s' = (mapStep op s).2)) ∨
    ((r = (mapStep op s).1 ∨ r = (mapStep op (mapStep op s).2).1) ∧ s' = (mapStep op s).2)

/-- Every failure of the plan is a timeout. -/
def TimeoutsOnly (plan : Plan) : Prop :=
  ∀ i exc effect, plan i = some (exc, effect) → handled exc = true ∧ isTimeout exc = true

/-- Doing an operation twice leaves what doing it once leaves. -/
theorem mapStep_twice (op : StoreOp) (s : MapStore) : (mapStep op (mapStep op s).2).2 = (mapStep op s).2 := by
  cases op with
  | get key => rfl
  | putIfAbsent key record =>
    cases hs : s key with
    | some stored =>
      have hstep : mapStep (.putIfAbsent key record) s = (.ok false, s) := by
        rw [mapStep, hs]
        rfl
      rw [hstep]
      exact congrArg Prod.snd hstep
    | none =>
      have hstep : mapStep (.putIfAbsent key record) s = (.ok true, Function.update s key (some record)) := by
        rw [mapStep, hs]
        rfl
      rw [hstep]
      show (mapStep (.putIfAbsent key record) (Function.update s key (some record))).2 = _
      rw [mapStep, Function.update_self]
      rfl
  | put key record => exact Function.update_idem ..

theorem afterFailure_cases (op : StoreOp) (s : MapStore) (effect : Bool) :
    afterFailure op s effect = s ∨ afterFailure op s effect = (mapStep op s).2 := by
  cases effect with
  | true => exact Or.inr rfl
  | false => exact Or.inl rfl

/-- With an empty fallback, the answer of the primary is the answer. -/
theorem direct_of_empty {b : Backend} (hempty : b.fallback = fun _ => none) (op : StoreOp) :
    direct op b = mapStep op b.primary := by
  cases op with
  | get key =>
    rw [direct_get, hempty, Option.or_none]
    rfl
  | putIfAbsent key record => rfl
  | put key record => rfl

/-- **The two copies refine the lossy map** when only timeouts occur and the fallback is empty. -/
theorem serveOp_lossy {plan : Plan} (hplan : TimeoutsOnly plan) {b : Backend}
    (hempty : b.fallback = fun _ => none) (op : StoreOp) :
    lossy op b.primary (serveOp plan op b).1 (serveOp plan op b).2.primary ∧
      (serveOp plan op b).2.fallback = fun _ => none := by
  cases hfirst : plan b.calls with
  | none =>
    rw [serveOp_up hfirst, direct_of_empty hempty]
    exact ⟨Or.inr ⟨Or.inl rfl, rfl⟩, hempty⟩
  | some failure =>
    obtain ⟨exc, effect⟩ := failure
    obtain ⟨hexc, ht⟩ := hplan _ _ _ hfirst
    have hstate := afterFailure_cases op b.primary effect
    cases hretry : plan (b.calls + 1) with
    | none =>
      rw [serveOp_retry hfirst hexc ht hretry]
      refine ⟨Or.inr ⟨?_, ?_⟩, hempty⟩
      · rcases hstate with hs | hs <;> rw [hs]
        · exact Or.inl rfl
        · exact Or.inr rfl
      · rcases hstate with hs | hs <;> rw [hs]
        exact mapStep_twice op b.primary
    | some failure' =>
      obtain ⟨exc', effect'⟩ := failure'
      obtain ⟨hexc', ht'⟩ := hplan _ _ _ hretry
      rw [serveOp_unavailable hfirst hexc ht hretry hexc' ht']
      refine ⟨Or.inl ⟨rfl, ?_⟩, hempty⟩
      show afterFailure op (afterFailure op b.primary effect) effect' = _ ∨ _
      rcases hstate with hs | hs <;> rw [hs]
      · exact afterFailure_cases op b.primary effect'
      · rcases afterFailure_cases op (mapStep op b.primary).2 effect' with hs' | hs' <;> rw [hs']
        · exact Or.inr rfl
        · exact Or.inr (mapStep_twice op b.primary)

variable {α : Type} {s : MapStore} {key : Str} {record : MappingRecord} {Q : Except PyExc α → MapStore → Prop}

theorem wp_get {f : Option MappingRecord → StoreM α} (hok : Prog.wp lossy (f (s key)).run Q s)
    (herr : Q (.error (.storeUnavailable true)) s) : Prog.wp lossy (StoreM.get key >>= f).run Q s := by
  intro r s' h
  rcases h with ⟨rfl, rfl | rfl⟩ | ⟨rfl | rfl, rfl⟩
  · exact herr
  · exact herr
  · exact hok
  · exact hok

theorem wp_putIfAbsent {f : Bool → StoreM α} (hs : s key = none)
    (hok : ∀ created, Prog.wp lossy (f created).run Q (Function.update s key (some record)))
    (herr : Q (.error (.storeUnavailable true)) s)
    (herr' : Q (.error (.storeUnavailable true)) (Function.update s key (some record))) :
    Prog.wp lossy (StoreM.putIfAbsent key record >>= f).run Q s := by
  have hstep : mapStep (.putIfAbsent key record) s = (.ok true, Function.update s key (some record)) := by
    rw [mapStep, hs]
    rfl
  intro r s' h
  unfold lossy at h
  rw [hstep] at h
  rcases h with ⟨rfl, rfl | rfl⟩ | ⟨hr, rfl⟩
  · exact herr
  · exact herr'
  · obtain ⟨created, hcreated⟩ : ∃ created, r = .ok created := by
      rcases hr with rfl | rfl
      · exact ⟨true, rfl⟩
      · exact mapStep_ok (.putIfAbsent key record) _
    subst hcreated
    exact hok created

theorem wp_put {f : Unit → StoreM α} (hok : Prog.wp lossy (f ()).run Q (Function.update s key (some record)))
    (herr : Q (.error (.storeUnavailable true)) s)
    (herr' : Q (.error (.storeUnavailable true)) (Function.update s key (some record))) :
    Prog.wp lossy (StoreM.put key record >>= f).run Q s := by
  intro r s' h
  rcases h with ⟨rfl, rfl | rfl⟩ | ⟨rfl | rfl, rfl⟩
  · exact herr
  · exact herr'
  · exact hok
  · exact hok

end Lossy

/-! ### One attempt -/

section Attempt

variable (P : Processor)

/-- How an attempt may end when a failure-free run ends with `done`: unavailable, with the store as before
or as after that run, or with its result text or exception and its store. -/
def Settles (s : MapStore) (done : Response × MapStore) (response : Response) (s' : MapStore) : Prop :=
  (response = .error (.storeUnavailable true) ∧ (s' = s ∨ s' = done.2)) ∨
    (response.map ProcessOutcome.result = done.1.map ProcessOutcome.result ∧ s' = done.2)

variable {P}

/-- A record made for the payload answers it with its mask. -/
theorem existing_own {payload : Str} {policy : SystemPolicy} {o : ProcessOutcome} {record : MappingRecord}
    (hmask : P.mask payload policy = .ok (o, record)) (id : Str) :
    ∃ o', P.existing id payload record policy = pure o' ∧ o'.result = o.result := by
  obtain ⟨-, horiginal, hmasked⟩ := P.mask_spec hmask
  obtain ⟨o', ha, hres⟩ : ∃ o', P.answer payload record policy = .ok (o', none) ∧ o'.result = record.masked :=
    Processor.answer_of_original horiginal.symm
  refine ⟨o', ?_, hres.trans hmasked⟩
  rw [P.existing_eq, ha]

/-- An attempt once the payload's own record is stored. -/
theorem process_own {s s₀ : MapStore} {r : Request} {o : ProcessOutcome} {record : MappingRecord}
    (hmask : P.mask r.payload r.policy = .ok (o, record)) (hs : s r.payloadId = some record) :
    Prog.wp lossy (P.process r.payloadId r.payload r.policy).run (Settles s₀ (.ok o, s)) s := by
  obtain ⟨o', hexisting, hres⟩ := existing_own hmask r.payloadId
  rw [P.process_eq]
  refine wp_get ?_ (Or.inl ⟨rfl, Or.inr rfl⟩)
  rw [hs, Processor.afterLookup, hexisting]
  exact Or.inr ⟨congrArg Except.ok hres, rfl⟩

/-- An attempt that finds no record. -/
theorem process_absent {s : MapStore} {r : Request} (hs : s r.payloadId = none) :
    Prog.wp lossy (P.process r.payloadId r.payload r.policy).run (Settles s (P.serve s r)) s := by
  rw [P.serve_none hs, P.process_eq]
  refine wp_get ?_ (Or.inl ⟨rfl, Or.inl rfl⟩)
  rw [hs, Processor.afterLookup]
  rcases hmask : P.mask r.payload r.policy with e | ⟨o, record⟩
  · exact Or.inr ⟨rfl, rfl⟩
  · dsimp only
    refine wp_putIfAbsent hs ?_ (Or.inl ⟨rfl, Or.inl rfl⟩) (Or.inl ⟨rfl, Or.inr rfl⟩)
    intro created
    cases created with
    | true => exact Or.inr ⟨rfl, rfl⟩
    | false =>
      -- the first call did take effect: the record read again is the payload's own
      obtain ⟨o', hexisting, hres⟩ := existing_own hmask r.payloadId
      refine wp_get ?_ (Or.inl ⟨rfl, Or.inr rfl⟩)
      rw [Function.update_self]
      dsimp only
      rw [hexisting]
      exact Or.inr ⟨congrArg Except.ok hres, rfl⟩

/-- An attempt that finds a record. -/
theorem process_present {s : MapStore} {r : Request} {record : MappingRecord}
    (hs : s r.payloadId = some record) :
    Prog.wp lossy (P.process r.payloadId r.payload r.policy).run (Settles s (P.serve s r)) s := by
  rw [P.serve_some hs, P.process_eq]
  refine wp_get ?_ (Or.inl ⟨rfl, Or.inl rfl⟩)
  rw [hs, Processor.afterLookup, P.existing_eq]
  rcases P.answer r.payload record r.policy with e | ⟨o, _ | newRecord⟩
  · exact Or.inr ⟨rfl, rfl⟩
  · exact Or.inr ⟨rfl, rfl⟩
  · refine wp_put ?_ (Or.inl ⟨rfl, Or.inl rfl⟩) (Or.inl ⟨rfl, Or.inr rfl⟩)
    exact Or.inr ⟨rfl, rfl⟩

/-- **One attempt** over a lossy map, from the store before the request or from the store after it. -/
theorem process_lossy (s : MapStore) (r : Request) {s' : MapStore} (hs' : s' = s ∨ s' = (P.serve s r).2) :
    Prog.wp lossy (P.process r.payloadId r.payload r.policy).run (Settles s (P.serve s r)) s' := by
  have hbefore : Prog.wp lossy (P.process r.payloadId r.payload r.policy).run (Settles s (P.serve s r)) s := by
    cases hs : s r.payloadId with
    | none => exact process_absent hs
    | some record => exact process_present hs
  rcases hs' with rfl | rfl
  · exact hbefore
  · rcases P.serve_cases s r with ⟨o, record, hmask, hserve⟩ | ⟨response, hserve, -⟩
    · -- the write took effect in an earlier attempt
      rw [hserve]
      exact process_own hmask (Function.update_self r.payloadId (some record) s)
    · have hsame : (P.serve s r).2 = s := by
        rw [hserve]
      rw [hsame]
      exact hbefore

end Attempt

/-! ### The client -/

section Client

variable (P : Processor) (plan : Plan) (r : Request)

/-- One attempt of the request on the store with two copies. -/
def attempt (b : Backend) : Response × Backend :=
  Prog.run (backendStep plan) (Prog.interp FallbackStore.handler (P.process r.payloadId r.payload r.policy).run) b

theorem attempt_eq (b : Backend) : attempt P plan r b =
    Prog.run (serveOp plan) (P.process r.payloadId r.payload r.policy).run b :=
  Prog.run_interp (backendStep plan) FallbackStore.handler _ b

/-- The client that repeats the request after each `StoreUnavailableError`, for at most `n` attempts. -/
def client : ℕ → Backend → Option (Response × Backend)
  | 0, _ => none
  | n + 1, b =>
    match attempt P plan r b with
    | (.error (.storeUnavailable _), b') => client n b'
    | (response, b') => some (response, b')

variable {P plan r}

/-- An attempt over copies with timeouts only. -/
theorem attempt_settles (hplan : TimeoutsOnly plan) {s : MapStore} {b : Backend}
    (hempty : b.fallback = fun _ => none) (hb : b.primary = s ∨ b.primary = (P.serve s r).2) :
    Settles s (P.serve s r) (attempt P plan r b).1 (attempt P plan r b).2.primary ∧
      (attempt P plan r b).2.fallback = fun _ => none := by
  rw [attempt_eq]
  exact Prog.run_of_wp Backend.primary (fun b => b.fallback = fun _ => none)
    (fun op b hb => serveOp_lossy hplan hb op) hempty (process_lossy s r hb)

/-- What the client ends with. -/
theorem client_safe (hplan : TimeoutsOnly plan) {s : MapStore} : ∀ {n : ℕ} {b : Backend},
    b.fallback = (fun _ => none) → (b.primary = s ∨ b.primary = (P.serve s r).2) → ∀ {response : Response}
    {b' : Backend}, client P plan r n b = some (response, b') →
      response.map ProcessOutcome.result = (P.serve s r).1.map ProcessOutcome.result ∧
        b'.primary = (P.serve s r).2 ∧ b'.fallback = fun _ => none
  | 0, _, _, _, _, _, h => by cases h
  | n + 1, b, hempty, hb, response, b', h => by
    obtain ⟨hsettles, hempty'⟩ := attempt_settles hplan hempty hb
    rw [client] at h
    rcases hattempt : attempt P plan r b with ⟨first, b''⟩
    rw [hattempt] at h hsettles hempty'
    rcases hsettles with ⟨hfirst, hstate⟩ | ⟨hresult, hstate⟩
    · dsimp only at hfirst
      subst hfirst
      exact client_safe hplan hempty' hstate h
    · by_cases hunavailable : ∃ timeout, first = .error (.storeUnavailable timeout)
      · -- not the end of a failure-free run
        obtain ⟨timeout, rfl⟩ := hunavailable
        exfalso
        cases hserve : (P.serve s r).1 with
        | ok o =>
          rw [hserve] at hresult
          cases hresult
        | error e =>
          rw [hserve] at hresult
          have he : PyExc.storeUnavailable timeout = e := Except.error.inj hresult
          rcases P.serve_error hserve with h1 | h1
          · rw [h1] at he
            cases he
          · rw [h1] at he
            cases he
      · have hend : some (first, b'') = some (response, b') := by
          rw [← h]
          split
          · rename_i timeout b₁ heq
            exact absurd ⟨timeout, congrArg Prod.fst heq⟩ hunavailable
          · rename_i response₁ b₁ _ heq
            rw [← heq]
        obtain ⟨rfl, rfl⟩ := Prod.mk.inj (Option.some.inj hend)
        exact ⟨hresult, hstate, hempty'⟩

/-! The client comes to an end once the timeouts do. -/

theorem serveOp_calls (hplan : TimeoutsOnly plan) (op : StoreOp) (b : Backend) :
    b.calls < (serveOp plan op b).2.calls := by
  cases hfirst : plan b.calls with
  | none =>
    rw [serveOp_up hfirst]
    exact Nat.lt_succ_self _
  | some failure =>
    obtain ⟨exc, effect⟩ := failure
    obtain ⟨hexc, ht⟩ := hplan _ _ _ hfirst
    cases hretry : plan (b.calls + 1) with
    | none =>
      rw [serveOp_retry hfirst hexc ht hretry]
      show b.calls < b.calls + 2
      omega
    | some failure' =>
      obtain ⟨exc', effect'⟩ := failure'
      obtain ⟨hexc', ht'⟩ := hplan _ _ _ hretry
      rw [serveOp_unavailable hfirst hexc ht hretry hexc' ht']
      show b.calls < b.calls + 2
      omega

theorem run_calls (hplan : TimeoutsOnly plan) {α : Type} : ∀ (p : Prog StoreOp StoreOp.Res α) (b : Backend),
    b.calls ≤ (Prog.run (serveOp plan) p b).2.calls
  | .ret _, _ => le_rfl
  | .call op k, b => by
    rw [Prog.run_call]
    exact (serveOp_calls hplan op b).le.trans (run_calls hplan (k _) _)

/-- Every attempt calls the primary. -/
theorem attempt_calls (hplan : TimeoutsOnly plan) (b : Backend) : b.calls < (attempt P plan r b).2.calls := by
  rw [attempt_eq, P.process_eq]
  exact lt_of_lt_of_le (serveOp_calls hplan (.get r.payloadId) b) (run_calls hplan _ _)

/-- Once no call times out any more, an attempt is a failure-free run. -/
theorem attempt_ok {n : ℕ} (hn : ∀ i, n ≤ i → plan i = none) {b : Backend} (hempty : b.fallback = fun _ => none)
    (hb : n ≤ b.calls) : (attempt P plan r b).1 = (P.serve b.primary r).1 := by
  rw [attempt_eq]
  have hop : ∀ op (b : Backend) (s : MapStore), (n ≤ b.calls ∧ b.fallback = (fun _ => none) ∧ b.primary = s) →
      (serveOp plan op b).1 = (mapStep op s).1 ∧ (n ≤ (serveOp plan op b).2.calls ∧
        (serveOp plan op b).2.fallback = (fun _ => none) ∧ (serveOp plan op b).2.primary = (mapStep op s).2) := by
    rintro op b s ⟨hcalls, hempty, rfl⟩
    rw [serveOp_up (hn b.calls hcalls), direct_of_empty hempty]
    exact ⟨rfl, Nat.le_succ_of_le hcalls, hempty, rfl⟩
  exact (Prog.run_sim hop (P.process r.payloadId r.payload r.policy).run ⟨hb, hempty, rfl⟩).1

/-- The client ends within as many attempts as there are calls until the last timeout, and one more. -/
theorem client_ends (hplan : TimeoutsOnly plan) {n : ℕ} (hn : ∀ i, n ≤ i → plan i = none) : ∀ (fuel : ℕ)
    {b : Backend}, b.fallback = (fun _ => none) → n ≤ b.calls + fuel → (client P plan r (fuel + 1) b).isSome
  | fuel, b, hempty, hfuel => by
    obtain ⟨-, hempty'⟩ := attempt_settles (P := P) (r := r) hplan (s := b.primary) hempty (Or.inl rfl)
    have hcalls : b.calls < (attempt P plan r b).2.calls := attempt_calls hplan b
    have hok : n ≤ b.calls → (attempt P plan r b).1 = (P.serve b.primary r).1 := fun h => attempt_ok hn hempty h
    rw [client]
    rcases hattempt : attempt P plan r b with ⟨first, b'⟩
    rw [hattempt] at hempty' hcalls hok
    split
    · rename_i timeout b₁ heq
      obtain ⟨rfl, rfl⟩ := Prod.mk.inj heq
      cases fuel with
      | zero =>
        -- an attempt without timeouts is not unavailable
        have hserve : (P.serve b.primary r).1 = .error (.storeUnavailable timeout) := (hok hfuel).symm
        rcases P.serve_error hserve with h1 | h1 <;> cases h1
      | succ fuel =>
        refine client_ends hplan hn fuel hempty' ?_
        dsimp only at hcalls
        omega
    · rfl

end Client

section Safety

variable (P : Processor)

/-- **Retrying after 503 is safe.**  Whatever calls of the primary time out, before or after taking effect,
a client that repeats the request until it gets another outcome than `StoreUnavailableError` ends with the
result text, or the exception, and the store of the failure-free execution; and it does end when only
finitely many calls time out. -/
theorem retry_is_safe {plan : Plan} (hplan : TimeoutsOnly plan) {b : Backend}
    (hempty : b.fallback = fun _ => none) (r : Request) :
    (∀ n response b', client P plan r n b = some (response, b') →
      response.map ProcessOutcome.result = (P.serve b.primary r).1.map ProcessOutcome.result ∧
        b'.primary = (P.serve b.primary r).2 ∧ b'.fallback = fun _ => none) ∧
    ((∃ n, ∀ i, n ≤ i → plan i = none) → ∃ n, (client P plan r n b).isSome) := by
  refine ⟨?_, ?_⟩
  · intro n response b' h
    exact client_safe hplan hempty (Or.inl rfl) h
  · rintro ⟨n, hn⟩
    exact ⟨n + 1, client_ends hplan hn n hempty (Nat.le_add_left n b.calls)⟩

/-- Both calls of the first lookup time out, and the first insertion does after taking effect. -/
def lateCalls : Plan := fun i => if i < 2 ∨ i = 3 then some (.timeoutError, i = 3) else none

theorem timeoutsOnly_lateCalls : TimeoutsOnly lateCalls := by
  intro i exc effect h
  unfold lateCalls at h
  split_ifs at h
  obtain ⟨rfl, -⟩ := Prod.mk.inj (Option.some.inj h)
  exact ⟨rfl, rfl⟩

/-- The first attempt is unavailable, the second one loses the insertion to its own timed-out call. -/
theorem retry_is_safe_late :
    let b : Backend := ⟨fun _ => none, fun _ => none, 0⟩
    let r : Request := ⟨"1".toList, "a@b.ru ok".toList, systems.default⟩
    (∀ n response b', client sample lateCalls r n b = some (response, b') →
      response.map ProcessOutcome.result = (sample.serve b.primary r).1.map ProcessOutcome.result ∧
        b'.primary = (sample.serve b.primary r).2 ∧ b'.fallback = fun _ => none) ∧
    ((∃ n, ∀ i, n ≤ i → lateCalls i = none) → ∃ n, (client sample lateCalls r n b).isSome) := by
  intro b r
  exact retry_is_safe sample timeoutsOnly_lateCalls rfl r

end Safety

end PdMasking
