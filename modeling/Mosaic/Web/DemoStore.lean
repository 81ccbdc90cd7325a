/-
The demo state store (src/shared/demo/demo-state-store.ts): its three
variables, the storage it is given and its four calls.

# Storage

A storage call throws or acts on a map; a call that throws changes nothing.
Which calls throw, and what the clock shows at each reading, is fixed by the
`Browser` for the whole session; the world counts the calls and the
readings. Of the map only the two keys of the store are kept. A stored text
that is not well-formed Unicode may parse to anything.

# Fallback

Once a call has failed the store serves `fallbackState`; a write that
succeeds ends that, unless a read has failed before.
-/
import Mosaic.Lib.Run
import Mosaic.Web.DemoState

namespace Mosaic.Web

open Lib

-- =============================================================== browser

/-- What a storage key holds. -/
inductive Raw
  | text (t : List Char)
  /-- Half a surrogate pair somewhere. -/
  | illFormed (s : JsStr)

/-- What a session is given from outside. -/
structure Browser (N : Numerals) where
  scenario : Scenario N
  /-- `JSON.parse` of a text that is not well-formed. -/
  parseIllFormed : JsStr → Option (Js.Data N.Double)
  /-- Whether a storage call throws. -/
  throws : Nat → Bool
  /-- `input.now()`, none if it throws. -/
  now : Nat → Option JsStr
  /-- `new Date()`. -/
  date : Nat → Instant

/-- The storage and the variables of the store, and what it has stored. -/
structure DemoWorld (N : Numerals) where
  v2 : Option Raw
  legacy : Option Raw
  calls : Nat
  readings : Nat
  fallbackState : Option (Js N.Double)
  useFallback : Bool
  readUnavailable : Bool
  stored : List (Js N.Double)

section

variable {N : Numerals} (b : Browser N)

-- =============================================================== storage

/-- `storage.getItem`; none if it throws. -/
def getItem (item : DemoWorld N → Option Raw) (w : DemoWorld N) :
    Option (Option Raw) × DemoWorld N :=
  (if b.throws w.calls = true then none else some (item w), { w with calls := w.calls + 1 })

/-- `storage.setItem(DEMO_STATE_STORAGE_KEY, JSON.stringify(state))`, and
whether it did not throw. -/
def setItem (state : Js N.Double) (w : DemoWorld N) : Bool × DemoWorld N :=
  let later := { w with calls := w.calls + 1 }
  if b.throws w.calls = true then (false, later)
  else (true, { later with
    v2 := some (.text (Js.stringify N state)), stored := w.stored ++ [state] })

/-- `storage.removeItem(DEMO_STATE_STORAGE_KEY)`. -/
def removeItem (w : DemoWorld N) : Bool × DemoWorld N :=
  let later := { w with calls := w.calls + 1 }
  if b.throws w.calls = true then (false, later) else (true, { later with v2 := none })

-- ================================================================= clock

/-- `timestamp`, at a reading of the clock. -/
def Browser.stamp (n : Nat) : JsStr :=
  match b.now n with
  | some candidate =>
      if canonicalStamp candidate = true then candidate else JsonText.jsString (b.date n).iso
  | none => JsonText.jsString (b.date n).iso

def timestamp (w : DemoWorld N) : JsStr × DemoWorld N :=
  (b.stamp w.readings, { w with readings := w.readings + 1 })

/-- `initial`. -/
def initial (w : DemoWorld N) : Js N.Double × DemoWorld N :=
  let (stamp, w) := timestamp b w
  (initialState b.scenario stamp, w)

-- =============================================================== parsing

def parseRaw : Raw → Option (Js N.Double)
  | .text t => Js.parse N t
  | .illFormed s => (b.parseIllFormed s).map (·.value)

/-- The state a stored text is taken for. -/
def stateOf (raw : Raw) : Option (Js N.Double) := do
  let parsed ← parseRaw b raw
  let parsed := migrateConversationCursors parsed
  if isDemoState b.scenario.modelIds parsed = true then some (toPersistedState parsed) else none

/-- The snapshot a stored text of the first version is taken for. -/
def legacyOf (raw : Raw) : Option (Js N.Double) :=
  (parseRaw b raw).filter isLegacyDemoState

/-- A state with the two flags of a legacy snapshot. -/
def withFlags (state snapshot : Js N.Double) : Js N.Double :=
  (state.set (js "authenticated") (snapshot.get (js "authenticated"))).set
    (js "passwordChangeRequired") (snapshot.get (js "passwordChangeRequired"))

/-- `{ ...state, updatedAt: stamp }`. -/
def restamp (state : Js N.Double) (stamp : JsStr) : Js N.Double :=
  state.set (js "updatedAt") (.string stamp)

-- ================================================================= calls

/-- `recoverInitial`. -/
def recoverInitial (storageReadFailed : Bool) (w : DemoWorld N) : Js N.Double × DemoWorld N :=
  let (state, w) :=
    match storageReadFailed, w.fallbackState with
    | true, some state => (state, w)
    | _, _ => initial b w
  let next := toPersistedState state
  (cloneValue next,
    { w with
      fallbackState := some next, useFallback := true
      readUnavailable := storageReadFailed || w.readUnavailable })

/-- `persist`. -/
def persist (state : Js N.Double) (w : DemoWorld N) : Js N.Double × DemoWorld N :=
  let next := toPersistedState state
  let (done, w) := setItem b next { w with fallbackState := some next }
  (cloneValue next, { w with useFallback := if done = true then w.readUnavailable else true })

/-- `read`, once the state of the second version is absent. -/
def readLegacy (w : DemoWorld N) : Js N.Double × DemoWorld N :=
  match getItem b (·.legacy) w with
  | (none, w) => recoverInitial b true w
  | (some (some raw), w) =>
      match legacyOf b raw with
      | none => recoverInitial b false w
      | some parsed =>
          let (migrated, w) := initial b w
          persist b (withFlags migrated parsed) w
  | (some none, w) =>
      let (state, w) := initial b w
      let next := toPersistedState state
      (cloneValue next, { w with fallbackState := some next })

/-- `read`, once the fallback is not served. -/
def readStorage (w : DemoWorld N) : Js N.Double × DemoWorld N :=
  match getItem b (·.v2) w with
  | (none, w) => recoverInitial b true w
  | (some (some raw), w) =>
      match stateOf b raw with
      | none => recoverInitial b false w
      | some state => (cloneValue state, { w with fallbackState := some state })
  | (some none, w) => readLegacy b w

/-- The state the fallback serves, if it does. -/
def DemoWorld.served (w : DemoWorld N) : Option (Js N.Double) :=
  if w.useFallback = true then w.fallbackState else none

/-- `read`. -/
def read (w : DemoWorld N) : Js N.Double × DemoWorld N :=
  match w.served with
  | some state => (cloneValue state, w)
  | none => readStorage b w

/-- The state a `write` starts from. -/
def writeBase (state : Js N.Double) (w : DemoWorld N) : Js N.Double × DemoWorld N :=
  if isDemoState b.scenario.modelIds state = true then (toPersistedState state, w)
  else if isLegacyDemoState state = true then
    let (base, w) := initial b w
    (withFlags base state, w)
  else read b w

/-- `write`. -/
def write (state : Js.Data N.Double) (w : DemoWorld N) : Js N.Double × DemoWorld N :=
  let (base, w) := writeBase b state.value w
  let (stamp, w) := timestamp b w
  persist b (restamp base stamp) w

/-- What a mutator makes of the current state, unless it throws or the
result is no state. -/
def candidateOf (mutator : Js N.Double → Option (Js.Data N.Double)) (current : Js N.Double) :
    Option (Js N.Double) :=
  ((mutator (cloneValue current)).map (·.value)).filter
    fun v => isDemoState b.scenario.modelIds v

/-- `update`; a mutator that throws returns none. -/
def update (mutator : Js N.Double → Option (Js.Data N.Double)) (w : DemoWorld N) :
    Js N.Double × DemoWorld N :=
  let (current, w) := read b w
  match candidateOf b mutator current with
  | none => (cloneValue current, w)
  | some candidate =>
      let (stamp, w) := timestamp b w
      persist b (restamp (toPersistedState candidate) stamp) w

/-- `reset`. -/
def reset (w : DemoWorld N) : Js N.Double × DemoWorld N :=
  let (state, w) := initial b w
  let next := toPersistedState state
  let (removed, w) := removeItem b { w with fallbackState := some next }
  let w := { w with useFallback := !removed || w.useFallback }
  let (done, w) := setItem b next w
  (cloneValue next, { w with useFallback := if done = true then w.readUnavailable else true })

-- ================================================================= session

inductive StoreCall (N : Numerals)
  | read
  | write (state : Js.Data N.Double)
  | update (mutator : Js N.Double → Option (Js.Data N.Double))
  | reset

/-- A call: what it returns, and the world after it. -/
def callStore (w : DemoWorld N) : StoreCall N → Js N.Double × DemoWorld N
  | .read => read b w
  | .write state => write b state w
  | .update mutator => update b mutator w
  | .reset => reset b w

def storeStep (w : DemoWorld N) (c : StoreCall N) : DemoWorld N := (callStore b w c).2

/-- A store just created, on any storage. -/
structure Created (w : DemoWorld N) : Prop where
  fallbackState : w.fallbackState = none
  useFallback : w.useFallback = false
  readUnavailable : w.readUnavailable = false
  stored : w.stored = []

end

end Mosaic.Web
