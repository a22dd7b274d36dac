/-
What a check run is asked to do.
-/
import FlashVolume.Detection.Options

namespace FlashVolume

/-- The settings of a check run. -/
structure Config where
  pageSize : Option Nat
  eraseSize : Option Nat
  segmentSize : Option Nat
  workers : Option Nat
  force : Bool
  noChange : Bool
  autoRepair : Bool
  assumeYes : Bool
  verbose : Bool
  json : Bool
deriving DecidableEq

namespace Config

def default : Config where
  pageSize := none
  eraseSize := none
  segmentSize := none
  workers := none
  force := false
  noChange := false
  autoRepair := false
  assumeYes := false
  verbose := false
  json := false

/-- Workers when none are asked for. -/
def defaultWorkers : Nat := 1

/-- The options of the detection run; there is always a worker. -/
def detectOptions (c : Config) : DetectOptions where
  force := c.force
  workers := max (c.workers.getD defaultWorkers) 1
  pageSize := c.pageSize
  eraseSize := c.eraseSize
  segmentSize := c.segmentSize

/-- Repairs are asked for and allowed. -/
def wantsRepair (c : Config) : Bool := (c.autoRepair || c.assumeYes) && !c.noChange

end Config

end FlashVolume
