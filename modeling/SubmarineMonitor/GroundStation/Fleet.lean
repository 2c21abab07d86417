import SubmarineMonitor.Foundation.Machine
import SubmarineMonitor.Foundation.Mirrored
import Mathlib.Data.Int.Notation

/-!
# The fleet of the ground station

`FleetManager` owns every submarine from its creation on and never gives one up, so a pointer to a
submarine is modelled by the place of the submarine in `submarines_`. A combat submarine keeps who
shares its mission as a list of such pointers, and the operations on links write the lists of both
sides.

`fleetStep` is one call on a submarine of the fleet; what is called and what it returned is recorded
beside the fleet, and no operation reads the record.

## Pointers and places

`submarines_` is a vector of owning pointers that only grows, so the object behind a pointer never
moves or ends, and a pointer can be compared with another one. The place in the vector has all of
that. The model needs no heap, and a dangling link cannot be written down unless a place is out of
range, which the invariant excludes.

An object has its base class's members and a constructor for the derived class, so a `dynamic_cast`
is a match, and the type of a submarine cannot change. Members keep the names of the source. A
message keeps the place of its sender.

## Calls

The public functions that change something are the constructors of `Call`, with the submarine they
are called on; a call that the menu cannot make, on a submarine that is not there or of another
class, has no result. Each is translated on the object it is a method of and lifted from there to
the fleet, and only the functions on links and messages touch a second object.

The record keeps calls and results, because statements on histories (how many missions were ended,
who sent which message) need them, and no operation reads it.

## What is left out

`describe` and everything else that only prints, the menu in front of the calls, and the connection
of a combat submarine to its computer beyond its address. Memory is never exhausted.
-/

namespace SubmarineMonitor.Fleet

/-! ### Submarines -/

structure Mission where
  description : List UInt8
  commanderName : List UInt8
  personnelCount : ℤ
  deriving DecidableEq

/-- A message, with the pointer to its sender. -/
structure Message where
  content : List UInt8
  sender : ℕ
  deriving DecidableEq

structure CentralComputer where
  host : List UInt8
  port : UInt16
  deriving DecidableEq

/-- What a `ResearchSubmarine` adds to a `Submarine`. -/
structure ResearchSubmarine where
  researchers : List (List UInt8)
  researchTopic : List UInt8
  deriving DecidableEq

/-- What a `CombatSubmarine` adds to a `Submarine`. -/
structure CombatSubmarine where
  currentMission : Option Mission
  missionHistory : List Mission
  linkedSubmarines : List ℕ
  centralComputer : CentralComputer
  deriving DecidableEq

/-- The dynamic type of a submarine, with the members of the derived class. -/
inductive SubmarineType
  | research (r : ResearchSubmarine)
  | combat (c : CombatSubmarine)
  deriving DecidableEq

structure Submarine where
  serialNumber : List UInt8
  name : List UInt8
  assigned : Bool
  receivedMessages : List Message
  type : SubmarineType
  deriving DecidableEq

namespace Submarine

/-- `dynamic_cast<ResearchSubmarine *>`. -/
def research? (s : Submarine) : Option ResearchSubmarine :=
  match s.type with
  | .research r => some r
  | .combat _ => none

/-- `dynamic_cast<CombatSubmarine *>`. -/
def combat? (s : Submarine) : Option CombatSubmarine :=
  match s.type with
  | .research _ => none
  | .combat c => some c

/-- The links of a submarine: only a combat submarine has a list of them. -/
def linkedSubmarines (s : Submarine) : List ℕ :=
  match s.type with
  | .research _ => []
  | .combat c => c.linkedSubmarines

/-- Write the list of links of a combat submarine. -/
def onLinks (g : List ℕ → List ℕ) (s : Submarine) : Submarine :=
  match s.type with
  | .research _ => s
  | .combat c =>
    { s with type := .combat { c with linkedSubmarines := g c.linkedSubmarines } }

/-- `Submarine::setName`. -/
def setName (s : Submarine) (name : List UInt8) : Submarine × Bool :=
  if name = [] then (s, false) else ({ s with name := name }, true)

/-- `Submarine::endMission`, before what the derived class adds. -/
def endMission (s : Submarine) : Submarine × Bool :=
  if s.assigned then ({ s with assigned := false }, true) else (s, false)

/-- `Submarine::receiveMessage`. -/
def receiveMessage (s : Submarine) (m : Message) : Submarine :=
  { s with receivedMessages := s.receivedMessages ++ [m] }

end Submarine

/-! ### Research submarines -/

/-- `ResearchSubmarine::assignMission`. -/
def ResearchSubmarine.assignMission (s : Submarine) (topic : List UInt8)
    (researchers : List (List UInt8)) : Submarine × Bool :=
  if s.assigned ∨ topic = [] then (s, false)
  else ({ s with type := .research ⟨researchers, topic⟩, assigned := true }, true)

/-- `ResearchSubmarine::setResearchTopic`. -/
def ResearchSubmarine.setResearchTopic (s : Submarine) (r : ResearchSubmarine)
    (topic : List UInt8) : Submarine × Bool :=
  if topic = [] then (s, false)
  else ({ s with type := .research { r with researchTopic := topic } }, true)

/-- `ResearchSubmarine::setResearchers`. -/
def ResearchSubmarine.setResearchers (s : Submarine) (r : ResearchSubmarine)
    (researchers : List (List UInt8)) : Submarine × Bool :=
  ({ s with type := .research { r with researchers := researchers } }, true)

/-! ### Missions of combat submarines -/

/-- `CombatSubmarine::assignMission`. -/
def CombatSubmarine.assignMission (s : Submarine) (c : CombatSubmarine)
    (description commanderName : List UInt8) (personnelCount : ℤ) : Submarine × Bool :=
  if s.assigned ∨ description = [] ∨ commanderName = [] ∨ personnelCount < 0 then (s, false)
  else
    ({ s with
        type := .combat { c with
          currentMission := some ⟨description, commanderName, personnelCount⟩ }
        assigned := true }, true)

/-- `Mission::setDescription`. -/
def Mission.setDescription (m : Mission) (description : List UInt8) : Mission × Bool :=
  if description = [] then (m, false) else ({ m with description := description }, true)

/-- `Mission::setCommanderName`. -/
def Mission.setCommanderName (m : Mission) (commanderName : List UInt8) : Mission × Bool :=
  if commanderName = [] then (m, false) else ({ m with commanderName := commanderName }, true)

/-- `Mission::setPersonnelCount`. -/
def Mission.setPersonnelCount (m : Mission) (personnelCount : ℤ) : Mission × Bool :=
  if personnelCount < 0 then (m, false) else ({ m with personnelCount := personnelCount }, true)

/-- A setter called through `currentMission()`. -/
def CombatSubmarine.setMission (s : Submarine) (c : CombatSubmarine) (m : Mission × Bool) :
    Submarine × Bool :=
  ({ s with type := .combat { c with currentMission := some m.1 } }, m.2)

/-- The current mission goes to the end of the history. -/
def CombatSubmarine.archive (c : CombatSubmarine) : CombatSubmarine :=
  match c.currentMission with
  | none => c
  | some m => { c with missionHistory := c.missionHistory ++ [m], currentMission := none }

/-! ### The manager -/

structure FleetManager where
  submarines : List Submarine
  deriving DecidableEq

namespace FleetManager

/-- `FleetManager::findBySerial`: the first submarine with this serial number. -/
def findBySerial (f : FleetManager) (serialNumber : List UInt8) : Option ℕ :=
  f.submarines.findIdx? (·.serialNumber = serialNumber)

/-- `FleetManager::hasSerial`. -/
def hasSerial (f : FleetManager) (serialNumber : List UInt8) : Bool :=
  (f.findBySerial serialNumber).isSome

/-- The common part of `addResearchSubmarine` and `addCombatSubmarine`. -/
def add (f : FleetManager) (serialNumber name : List UInt8) (type : SubmarineType) :
    FleetManager × Bool :=
  if serialNumber = [] ∨ name = [] ∨ f.hasSerial serialNumber then (f, false)
  else (⟨f.submarines ++ [⟨serialNumber, name, false, [], type⟩]⟩, true)

/-- `FleetManager::addResearchSubmarine`. -/
def addResearchSubmarine (f : FleetManager) (serialNumber name : List UInt8) :
    FleetManager × Bool :=
  f.add serialNumber name (.research ⟨[], []⟩)

/-- `FleetManager::addCombatSubmarine`. -/
def addCombatSubmarine (f : FleetManager) (serialNumber name host : List UInt8) (port : UInt16) :
    FleetManager × Bool :=
  f.add serialNumber name (.combat ⟨none, [], [], ⟨host, port⟩⟩)

/-- Write one submarine. -/
def set (f : FleetManager) (i : ℕ) (s : Submarine) : FleetManager :=
  ⟨f.submarines.set i s⟩

/-- Write the list of links behind a pointer. -/
def onLinks (f : FleetManager) (i : ℕ) (g : List ℕ → List ℕ) : FleetManager :=
  ⟨f.submarines.modify i (Submarine.onLinks g)⟩

/-- `linkedSubmarines()` behind a pointer. -/
def linkedSubmarines (f : FleetManager) (i : ℕ) : List ℕ :=
  match f.submarines[i]? with
  | none => []
  | some s => s.linkedSubmarines

/-- `CombatSubmarine::isLinkedTo`. -/
def isLinkedTo (f : FleetManager) (this other : ℕ) : Bool :=
  (f.linkedSubmarines this).contains other

/-- `CombatSubmarine::linkSubmarine`. -/
def linkSubmarine (f : FleetManager) (this other : ℕ) : FleetManager × Bool :=
  if other = this ∨ f.isLinkedTo this other then (f, false)
  else ((f.onLinks this (· ++ [other])).onLinks other (· ++ [this]), true)

/-- The loop of `CombatSubmarine::endMission` over the peers. -/
def unlinkPeers (f : FleetManager) (this : ℕ) (peers : List ℕ) : FleetManager :=
  peers.foldl (fun f linked ↦ f.onLinks linked (List.filter (· ≠ this))) f

/-- `endMission`, by the dynamic type of the submarine. -/
def endMission (f : FleetManager) (this : ℕ) (s : Submarine) : FleetManager × Bool :=
  match s.endMission, s.type with
  | (_, false), _ => (f, false)
  | (s', true), .research _ => (f.set this s', true)
  | (s', true), .combat c =>
    let f' := f.set this { s' with type := .combat c.archive }
    ((f'.unlinkPeers this c.linkedSubmarines).onLinks this fun _ ↦ [], true)

/-- `CombatSubmarine::sendMessage`. -/
def sendMessage (f : FleetManager) (this recipient : ℕ) (r : Submarine) (content : List UInt8) :
    FleetManager × Bool :=
  if f.isLinkedTo this recipient then (f.set recipient (r.receiveMessage ⟨content, this⟩), true)
  else (f, false)

end FleetManager

/-! ### Calls -/

/-- A call on the manager, or on a submarine of the fleet. -/
inductive Call
  | addResearchSubmarine (serialNumber name : List UInt8)
  | addCombatSubmarine (serialNumber name host : List UInt8) (port : UInt16)
  | setName (this : ℕ) (name : List UInt8)
  | assignResearch (this : ℕ) (topic : List UInt8) (researchers : List (List UInt8))
  | setResearchTopic (this : ℕ) (topic : List UInt8)
  | setResearchers (this : ℕ) (researchers : List (List UInt8))
  | assignCombat (this : ℕ) (description commanderName : List UInt8) (personnelCount : ℤ)
  | setDescription (this : ℕ) (description : List UInt8)
  | setCommanderName (this : ℕ) (commanderName : List UInt8)
  | setPersonnelCount (this : ℕ) (personnelCount : ℤ)
  | endMission (this : ℕ)
  | linkSubmarine (this other : ℕ)
  | sendMessage (this recipient : ℕ) (content : List UInt8)
  deriving DecidableEq

namespace FleetManager

/-- A call that writes the submarine it is made on. -/
def onSubmarine (f : FleetManager) (i : ℕ) (call : Submarine → Option (Submarine × Bool)) :
    Option (FleetManager × Bool) := do
  let s ← f.submarines[i]?
  let r ← call s
  return (f.set i r.1, r.2)

/-- A call on a research submarine. -/
def onResearch (f : FleetManager) (i : ℕ)
    (call : Submarine → ResearchSubmarine → Submarine × Bool) : Option (FleetManager × Bool) :=
  f.onSubmarine i fun s ↦ s.research?.map (call s)

/-- A call on a combat submarine. -/
def onCombat (f : FleetManager) (i : ℕ) (call : Submarine → CombatSubmarine → Submarine × Bool) :
    Option (FleetManager × Bool) :=
  f.onSubmarine i fun s ↦ s.combat?.map (call s)

/-- A call through `currentMission()` of a combat submarine that has one. -/
def onMission (f : FleetManager) (i : ℕ) (call : Mission → Mission × Bool) :
    Option (FleetManager × Bool) :=
  f.onSubmarine i fun s ↦ do
    let c ← s.combat?
    let m ← c.currentMission
    return c.setMission s (call m)

/-- The combat submarine behind a pointer. -/
def combat? (f : FleetManager) (i : ℕ) : Option CombatSubmarine :=
  f.submarines[i]?.bind Submarine.combat?

/-- A call and what it returns. There is no such call where the submarine is not in the fleet, or is
not of the class that has the function. -/
def perform (f : FleetManager) : Call → Option (FleetManager × Bool)
  | .addResearchSubmarine serialNumber name => some (f.addResearchSubmarine serialNumber name)
  | .addCombatSubmarine serialNumber name host port =>
    some (f.addCombatSubmarine serialNumber name host port)
  | .setName i name => f.onSubmarine i fun s ↦ some (s.setName name)
  | .assignResearch i topic researchers =>
    f.onResearch i fun s _ ↦ ResearchSubmarine.assignMission s topic researchers
  | .setResearchTopic i topic => f.onResearch i fun s r ↦ r.setResearchTopic s topic
  | .setResearchers i researchers => f.onResearch i fun s r ↦ r.setResearchers s researchers
  | .assignCombat i description commanderName personnelCount =>
    f.onCombat i fun s c ↦ c.assignMission s description commanderName personnelCount
  | .setDescription i description => f.onMission i (·.setDescription description)
  | .setCommanderName i commanderName => f.onMission i (·.setCommanderName commanderName)
  | .setPersonnelCount i personnelCount => f.onMission i (·.setPersonnelCount personnelCount)
  | .endMission i => f.submarines[i]?.map (f.endMission i)
  | .linkSubmarine i j => do
    let _ ← f.combat? i
    let _ ← f.combat? j
    return f.linkSubmarine i j
  | .sendMessage i j content => do
    let _ ← f.combat? i
    let _ ← f.combat? j
    let r ← f.submarines[j]?
    return f.sendMessage i j r content

end FleetManager

/-- A fleet, with the calls that were made and what they returned. -/
structure Record where
  fleet : FleetManager
  calls : List (Call × Bool)
  deriving DecidableEq

/-- Make a call. -/
def fleetStep (r : Record) (call : Call) : Option Record :=
  (r.fleet.perform call).map fun result ↦ ⟨result.1, r.calls ++ [(call, result.2)]⟩

/-- An empty manager. -/
def fleetStart : Record :=
  ⟨⟨[]⟩, []⟩

/-- How often `endMission` of this submarine succeeded. -/
def Record.missionsEnded (r : Record) (i : ℕ) : ℕ :=
  r.calls.count (.endMission i, true)

end SubmarineMonitor.Fleet
