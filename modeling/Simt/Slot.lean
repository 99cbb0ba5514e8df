-- Slots: places that hold one warp instruction each. A slot is issued into,
-- worked on and cleared, and then used again. The state of its lanes (an address,
-- a miss, work parked until the memory answers) is made when a lane first needs
-- it, and stays in place, wiped, when the slot is cleared. The parked work is a
-- value of a type `α` that the caller chooses, and delivering it is up to the
-- caller.
import Simt.Instruction
import Simt.Mask

namespace Simt

/-- The state of one lane. -/
structure Lane (α : Type) where
  addr : UInt64
  parked : Option α
  cacheMiss : Bool
  deriving DecidableEq

/-- A lane that nothing was recorded for. -/
def Lane.fresh {α : Type} : Lane α := ⟨0, none, false⟩

structure Slot (α : Type) where
  inst : Instruction
  width : Nat
  empty : Bool
  /-- Some lane had work parked since the slot was last empty. -/
  atomic : Bool
  warp : UInt32
  issueCycle : UInt64
  active : Mask
  /-- The lanes, once one of them has had state. -/
  lanes : Option (List (Lane α))
  deriving DecidableEq

namespace Slot

variable {α : Type}

/-! ## Making, issuing and clearing -/

/-- An empty slot for warps of a width. -/
def new (width : Nat) : Outcome (Slot α) :=
  if width ≤ maxWarpSize then
    .ok { inst := .placeholder, width, empty := true, atomic := false, warp := 0,
          issueCycle := 0, active := .empty, lanes := none }
  else .error (.slotTooWide width)

/-- An empty slot for a width that comes from outside, where a width too large is an
error that the caller can answer. -/
def ofWidth (width : Nat) : Except ModelError (Slot α) :=
  match new width with
  | .ok slot => .ok slot
  | .error _ => .error (.warpSizeTooLarge width)

/-- Puts the instruction of a warp into the slot. The lanes of the mask that the slot has
become active. -/
def issue (s : Slot α) (mask : UInt32) (warp : UInt32) (cycle : UInt64) : Outcome (Slot α) :=
  if s.empty then
    let named := (List.range s.width).filter (Mask.mk mask).test
    .ok { s with empty := false, warp, issueCycle := cycle,
                 active := named.foldl Mask.insert s.active }
  else .error (.slotOccupied s.warp)

/-- Empties the slot. The lanes keep their place, and lose what was recorded. -/
def clear (s : Slot α) : Slot α :=
  { s with empty := true, atomic := false, warp := 0, issueCycle := 0, active := .empty,
           lanes := s.lanes.map (·.map fun _ => .fresh) }

/-- Puts what `source` holds into the empty slot `target`, and leaves `source` empty. The
two slots change places, so the answer is the new target and the new source. -/
def move (target source : Slot α) : Outcome (Slot α × Slot α) :=
  if target.empty then .ok (source, target.clear) else .error .moveIntoOccupied

/-! ## The state of the lanes -/

/-- The lanes, made new when no lane had state. -/
def madeLanes (s : Slot α) : List (Lane α) :=
  s.lanes.getD (List.replicate s.width .fresh)

/-- Changes the state of one lane. Every lane of the width can be changed, active or not. -/
def updateLane (s : Slot α) (lane : Nat) (change : Lane α → Lane α) : Outcome (Slot α) :=
  if lane < s.madeLanes.length then .ok { s with lanes := s.madeLanes.modify lane change }
  else .error (.outOfBounds s.madeLanes.length lane)

def setAddr (s : Slot α) (lane : Nat) (addr : UInt64) : Outcome (Slot α) :=
  s.updateLane lane ({ · with addr })

def setCacheMiss (s : Slot α) (lane : Nat) (cacheMiss : Bool) : Outcome (Slot α) :=
  s.updateLane lane ({ · with cacheMiss })

/-- Parks work on a lane, in place of what was parked there. -/
def park (s : Slot α) (lane : Nat) (work : α) : Outcome (Slot α) :=
  { s with atomic := true }.updateLane lane ({ · with parked := some work })

/-- The state of a lane, where it has any. -/
def lane? (s : Slot α) (lane : Nat) : Option (Lane α) :=
  s.lanes.bind (·[lane]?)

def addr? (s : Slot α) (lane : Nat) : Option UInt64 :=
  (s.lane? lane).map (·.addr)

/-- The address of a lane, active or not. -/
def addr (s : Slot α) (lane : Nat) : Outcome UInt64 :=
  match s.lanes with
  | none => .error (.addressUnset lane)
  | some lanes =>
    match lanes[lane]? with
    | some l => .ok l.addr
    | none => .error (.outOfBounds lanes.length lane)

def cacheMiss (s : Slot α) (lane : Nat) : Bool :=
  (s.lane? lane).any (·.cacheMiss)

/-- The lane is active and has work parked. -/
def hasParked (s : Slot α) (lane : Nat) : Bool :=
  s.active.test lane && (s.lane? lane).any (·.parked.isSome)

/-- Takes the parked work off every lane, active or not, in ascending order. -/
def takeParked (s : Slot α) : Outcome (List α × Slot α) :=
  if s.atomic && !s.empty then
    .ok ((s.lanes.getD []).filterMap (·.parked),
      { s with lanes := s.lanes.map (·.map ({ · with parked := none })) })
  else .error .notAtomic

/-- Parked work in a listing. What the work will do cannot be seen. -/
def parkedListing (_ : α) : String := "DeferredCallback"

/-! ## What an occupied slot says of itself -/

def warpId (s : Slot α) : Outcome UInt32 :=
  if s.empty then .error .emptyWarpId else .ok s.warp

def issuedAt (s : Slot α) : Outcome UInt64 :=
  if s.empty then .error .emptyIssueCycle else .ok s.issueCycle

/-- The active lanes as ones and zeros, the highest lane first. -/
def maskText (s : Slot α) : String :=
  String.ofList ((List.range s.width).reverse.map fun lane => if s.active.test lane then '1' else '0')

def text (s : Slot α) : String :=
  s.inst.text ++ s.maskText

end Slot

end Simt
