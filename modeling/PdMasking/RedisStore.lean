import PdMasking.MemoryStore
import PdMasking.Store

/-!
# PdMasking.RedisStore — the store in Redis (`storage/redis_store.py`)

A store operation is a program over the commands of the client.  `redisStep` is the server: keys with the time at
which they expire, and a plan that says which commands fail, how, and whether a failed one took effect all the same.

`RedisStore.serve_refines`: while no record expires, the store answers as a map in which the same operations fail
with `StoreUnavailableError`.
-/

namespace PdMasking

/-- `RedisTimeoutError`, `RedisConnectionError`, or any other `RedisError`. -/
inductive RedisError
  | timeout | connection | other
  deriving DecidableEq

/-- `_unavailable` -/
def unavailable : RedisError → PyExc
  | .timeout => .storeUnavailable true
  | .connection => .storeUnavailable false
  | .other => .storeUnavailable false

/-! ### The client -/

inductive RedisCmd (T Blob : Type)
  | get (key : Str)
  | set (key : Str) (value : Blob) (ex : T) (nx : Bool)

section Client

variable {T Blob Nonce : Type}

/-- The reply to a command; `SET` with `NX` replies whether it has set the key. -/
def RedisCmd.Val : RedisCmd T Blob → Type
  | get _ => Option Blob
  | set _ _ _ _ => Bool

abbrev RedisCmd.Res (cmd : RedisCmd T Blob) : Type := Except RedisError cmd.Val

abbrev RedisM (T Blob α : Type) : Type := Prog (RedisCmd T Blob) RedisCmd.Res α

def command (cmd : RedisCmd T Blob) : RedisM T Blob cmd.Res := Prog.invoke cmd

/-- `_PREFIX` -/
def PREFIX : Str := ['p', 'd', ':', 'm', 'a', 'p', ':']

/-- `RedisStore` -/
structure RedisStore (T Blob Nonce : Type) where
  codec : RecordCodec Blob Nonce
  ttl : T

namespace RedisStore

variable (S : RedisStore T Blob Nonce)

/-- `get`; what `decode` raises is not caught. -/
def get (key : Str) : RedisM T Blob (StoreOp.Res (.get key)) := do
  match ← command (.get (PREFIX ++ key)) with
  | .error exc => return .error (unavailable exc)
  | .ok none => return .ok none
  | .ok (some blob) => return (S.codec.decode key blob).map some

/-- `put_if_absent` -/
def putIfAbsent (nonce : Nonce) (key : Str) (record : MappingRecord) :
    RedisM T Blob (StoreOp.Res (.putIfAbsent key record)) := do
  match ← command (.set (PREFIX ++ key) (S.codec.encode nonce key record) S.ttl true) with
  | .error exc => return .error (unavailable exc)
  | .ok created => return .ok created

/-- `put` -/
def put (nonce : Nonce) (key : Str) (record : MappingRecord) : RedisM T Blob (StoreOp.Res (.put key record)) := do
  match ← command (.set (PREFIX ++ key) (S.codec.encode nonce key record) S.ttl false) with
  | .error exc => return .error (unavailable exc)
  | .ok _ => return .ok ()

/-- The store as a whole; the nonce is for `encode`. -/
def handler (nonce : Nonce) : (op : StoreOp) → RedisM T Blob op.Res
  | .get key => S.get key
  | .putIfAbsent key record => S.putIfAbsent nonce key record
  | .put key record => S.put nonce key record

end RedisStore

end Client

/-! ### The server -/

/-- What a process reads from outside: the clock and the random bytes, each at its next reading. -/
structure Readings (T Nonce : Type) where
  clock : ℕ → T
  nonce : ℕ → Nonce

section Server

variable {T Blob : Type} [LinearOrder T] [Add T]

/-- The keys with their values and when they expire, and how many commands there were. -/
structure Redis (T Blob : Type) where
  keys : Str → Option (T × Blob)
  calls : ℕ

/-- The value of a key, unless it has expired. -/
def liveValue (now : T) : Option (T × Blob) → Option Blob
  | none => none
  | some (expiresAt, value) => if expiresAt < now then none else some value

/-- What a command does to the keys at a time. -/
def runCommand (now : T) : (cmd : RedisCmd T Blob) → (Str → Option (T × Blob)) → cmd.Val × (Str → Option (T × Blob))
  | .get key, keys => (liveValue now (keys key), keys)
  | .set key value ex nx, keys =>
    if nx ∧ (liveValue now (keys key)).isSome then (false, keys)
    else (true, Function.update keys key (some (now + ex, value)))

/-- What becomes of each command: `none` when it succeeds, else the exception it raises and whether it took effect. -/
abbrev RedisPlan := ℕ → Option (RedisError × Bool)

def redisStep (plan : RedisPlan) (clock : ℕ → T) : (cmd : RedisCmd T Blob) → Redis T Blob → cmd.Res × Redis T Blob :=
  fun cmd r =>
    let after := runCommand (clock r.calls) cmd r.keys
    match plan r.calls with
    | none => (.ok after.1, ⟨after.2, r.calls + 1⟩)
    | some (exc, effect) => (.error exc, ⟨if effect then after.2 else r.keys, r.calls + 1⟩)

variable {Nonce : Type}

/-- One operation of the store against the server. -/
def RedisStore.serve (S : RedisStore T Blob Nonce) (plan : RedisPlan) (readings : Readings T Nonce) (op : StoreOp)
    (r : Redis T Blob) : op.Res × Redis T Blob :=
  Prog.run (redisStep plan readings.clock) (S.handler (readings.nonce r.calls) op) r

end Server

/-! ### The server as a map -/

section Refinement

variable {T Blob Nonce : Type} [LinearOrder T] [Add T] (S : RedisStore T Blob Nonce) (readings : Readings T Nonce)

/-- The server holds the records of the map, and none of them expires before a time that is ever read. -/
structure RedisStore.Holds (r : Redis T Blob) (s : MapStore) : Prop where
  records : ∀ key, (r.keys (PREFIX ++ key)).map (fun e => S.codec.decode key e.2) = (s key).map .ok
  lasting : ∀ key e, r.keys key = some e → ∀ i, readings.clock i ≤ e.1

/-- The operations that fail, with what the store raises. -/
def RedisPlan.raised (plan : RedisPlan) (i : ℕ) : Option (PyExc × Bool) :=
  (plan i).map (fun failure => (unavailable failure.1, failure.2))

/-- One operation of a map that may fail. -/
def planStep (failure : Option (PyExc × Bool)) (op : StoreOp) (s : MapStore) : op.Res × MapStore :=
  match failure with
  | none => mapStep op s
  | some (exc, effect) => (.error exc, if effect then (mapStep op s).2 else s)

variable {S readings}

namespace RedisStore

omit [Add T] in
theorem Holds.liveValue {r : Redis T Blob} {s : MapStore} (h : S.Holds readings r s) (key : Str) (i : ℕ) :
    (liveValue (readings.clock i) (r.keys (PREFIX ++ key))).map (S.codec.decode key) = (s key).map .ok := by
  rw [← h.records]
  rcases hkey : r.keys (PREFIX ++ key) with _ | ⟨expiresAt, value⟩
  · rfl
  · have hlast : ¬ expiresAt < readings.clock i := not_lt.mpr (h.lasting _ _ hkey i)
    show Option.map _ (if expiresAt < readings.clock i then none else some value) = _
    rw [if_neg hlast]
    rfl

/-- Setting a key to an encoded record sets the record of the key. -/
theorem Holds.set {r : Redis T Blob} {s : MapStore} (h : S.Holds readings r s) (hcodec : S.codec.Lossless)
    (hclock : ∀ i j, readings.clock i ≤ readings.clock j + S.ttl) (nonce : Nonce) (key : Str) (record : MappingRecord)
    (j calls : ℕ) :
    S.Holds readings ⟨Function.update r.keys (PREFIX ++ key)
      (some (readings.clock j + S.ttl, S.codec.encode nonce key record)), calls⟩ (Function.update s key (some record)) := by
  constructor
  · intro key'
    by_cases hk : key' = key
    · subst hk
      dsimp only
      rw [Function.update_self, Function.update_self, Option.map_some, Option.map_some, hcodec]
    · have hprefix : PREFIX ++ key' ≠ PREFIX ++ key := fun heq => hk (List.append_cancel_left heq)
      dsimp only
      rw [Function.update_of_ne hprefix, Function.update_of_ne hk]
      exact h.records key'
  · intro key' e he i
    dsimp only at he
    by_cases hk : key' = PREFIX ++ key
    · subst hk
      rw [Function.update_self] at he
      cases he
      exact hclock i j
    · rw [Function.update_of_ne hk] at he
      exact h.lasting key' e he i

/-- The command that an operation sends. -/
def cmd (S : RedisStore T Blob Nonce) (nonce : Nonce) : StoreOp → RedisCmd T Blob
  | .get key => .get (PREFIX ++ key)
  | .putIfAbsent key record => .set (PREFIX ++ key) (S.codec.encode nonce key record) S.ttl true
  | .put key record => .set (PREFIX ++ key) (S.codec.encode nonce key record) S.ttl false

/-- What a lookup makes of a value. -/
def decoded (S : RedisStore T Blob Nonce) (key : Str) : Option Blob → StoreOp.Res (.get key)
  | none => .ok none
  | some blob => (S.codec.decode key blob).map some

omit [LinearOrder T] [Add T] in
theorem decoded_of_map {key : Str} {value : Option Blob} {found : Option MappingRecord}
    (h : value.map (S.codec.decode key) = found.map .ok) : S.decoded key value = .ok found := by
  rcases value with _ | blob
  · rw [Option.map_eq_none_iff.mp h.symm]
    rfl
  · obtain ⟨record, hrecord, hdecode⟩ := Option.map_eq_some_iff.mp h.symm
    rw [hrecord, decoded, ← hdecode]
    rfl

/-- What an operation makes of the reply. -/
def reply (S : RedisStore T Blob Nonce) (nonce : Nonce) : (op : StoreOp) → (S.cmd nonce op).Val → op.Res
  | .get key => fun value => S.decoded key value
  | .putIfAbsent _ _ => fun created => .ok created
  | .put _ _ => fun _ => .ok ()

omit [LinearOrder T] [Add T] in
/-- Every operation is one command. -/
theorem handler_eq (nonce : Nonce) (op : StoreOp) : S.handler nonce op = (command (S.cmd nonce op)).bind
    (fun r => match r with
      | .error exc => .ret (.error (unavailable exc))
      | .ok value => .ret (S.reply nonce op value)) := by
  cases op with
  | get key =>
    show Prog.call _ _ = Prog.call _ _
    refine congrArg _ ?_
    funext r
    rcases r with exc | _ | blob <;> rfl
  | putIfAbsent key record =>
    show Prog.call _ _ = Prog.call _ _
    refine congrArg _ ?_
    funext r
    rcases r with exc | created <;> rfl
  | put key record =>
    show Prog.call _ _ = Prog.call _ _
    refine congrArg _ ?_
    funext r
    rcases r with exc | created <;> rfl

/-- A command that takes effect does to the server what the operation does to the map. -/
theorem Holds.runCommand {r : Redis T Blob} {s : MapStore} (h : S.Holds readings r s) (hcodec : S.codec.Lossless)
    (hclock : ∀ i j, readings.clock i ≤ readings.clock j + S.ttl) (nonce : Nonce) (op : StoreOp) (i calls : ℕ) :
    S.reply nonce op (runCommand (readings.clock i) (S.cmd nonce op) r.keys).1 = (mapStep op s).1 ∧
      S.Holds readings ⟨(PdMasking.runCommand (readings.clock i) (S.cmd nonce op) r.keys).2, calls⟩ (mapStep op s).2 := by
  have hsame : S.Holds readings ⟨r.keys, calls⟩ s := ⟨h.records, h.lasting⟩
  cases op with
  | get key => exact ⟨decoded_of_map (h.liveValue key i), hsame⟩
  | putIfAbsent key record =>
    have hlive : (PdMasking.liveValue (readings.clock i) (r.keys (PREFIX ++ key))).isSome = (s key).isSome := by
      rw [← Option.isSome_map (f := S.codec.decode key), h.liveValue key i, Option.isSome_map]
    have hset := h.set hcodec hclock nonce key record i calls
    simp only [cmd, PdMasking.runCommand, mapStep, hlive, true_and]
    by_cases hsome : (s key).isSome = true
    · rw [if_pos hsome, if_pos hsome]
      exact ⟨rfl, hsame⟩
    · rw [if_neg hsome, if_neg hsome]
      exact ⟨rfl, hset⟩
  | put key record =>
    have hset := h.set hcodec hclock nonce key record i calls
    simp only [cmd, PdMasking.runCommand, mapStep, Bool.false_eq_true, false_and, if_false]
    exact ⟨rfl, hset⟩

/-- An operation whose command succeeds. -/
theorem serve_up {plan : RedisPlan} {r : Redis T Blob} (hplan : plan r.calls = none) (op : StoreOp) :
    S.serve plan readings op r =
      (S.reply (readings.nonce r.calls) op
        (runCommand (readings.clock r.calls) (S.cmd (readings.nonce r.calls) op) r.keys).1,
      ⟨(runCommand (readings.clock r.calls) (S.cmd (readings.nonce r.calls) op) r.keys).2, r.calls + 1⟩) := by
  unfold serve
  rw [handler_eq, Prog.run_bind]
  unfold command Prog.invoke
  rw [Prog.run_call]
  simp only [redisStep, hplan]
  rfl

/-- An operation whose command fails. -/
theorem serve_failed {plan : RedisPlan} {r : Redis T Blob} {exc : RedisError} {effect : Bool}
    (hplan : plan r.calls = some (exc, effect)) (op : StoreOp) :
    S.serve plan readings op r =
      (.error (unavailable exc),
      ⟨if effect then (runCommand (readings.clock r.calls) (S.cmd (readings.nonce r.calls) op) r.keys).2 else r.keys,
        r.calls + 1⟩) := by
  unfold serve
  rw [handler_eq, Prog.run_bind]
  unfold command Prog.invoke
  rw [Prog.run_call]
  simp only [redisStep, hplan]
  rfl

/-- **The store refines a map in which the same operations fail**, while no record expires. -/
theorem serve_refines (hcodec : S.codec.Lossless) (hclock : ∀ i j, readings.clock i ≤ readings.clock j + S.ttl)
    (plan : RedisPlan) (op : StoreOp) {r : Redis T Blob} {s : MapStore} (h : S.Holds readings r s) :
    (S.serve plan readings op r).1 = (planStep (plan.raised r.calls) op s).1 ∧
      S.Holds readings (S.serve plan readings op r).2 (planStep (plan.raised r.calls) op s).2 ∧
      (S.serve plan readings op r).2.calls = r.calls + 1 := by
  obtain ⟨hresult, hheld⟩ := h.runCommand hcodec hclock (readings.nonce r.calls) op r.calls (r.calls + 1)
  unfold RedisPlan.raised
  rcases hplan : plan r.calls with _ | ⟨exc, effect⟩
  · rw [serve_up hplan]
    exact ⟨hresult, hheld, rfl⟩
  · rw [serve_failed hplan]
    refine ⟨rfl, ?_, rfl⟩
    cases effect with
    | true => exact hheld
    | false => exact ⟨h.records, h.lasting⟩

end RedisStore

end Refinement

end PdMasking
