import SubmarineMonitor.Foundation.Text

/-!
# Measurements and modes

What `monitor.c` hands to the log, to the events and to the keep-alive: one round's readings and the
mode they were classified into.

## Why a module of its own

The types are needed below the monitor itself: the log prints a measurement, the event module names
a mode, the keep-alive packs both, and none of them samples anything. What `monitor_task` does with
them is in `Node.Rounds`, how a measurement becomes a mode in `Node.Classification`.

The unknown mode is `-1` in the enumeration and is what the module starts with, so that the first
round always reports a change. It is sent as the byte 255, and it has a name for the log that is
none of the other three.

## What is left out

The tasks, handles and the mutex around the latest measurement: what is published is a pair, copied
as one (`Node.Rounds`, `Node.LockUse`).
-/

open Text

namespace SubmarineMonitor

/-- `monitor_mode_t`. -/
inductive MonitorMode
  /-- No reading taken yet. -/
  | unknown
  | normal
  | warning
  | error
  deriving DecidableEq, Repr

/-- `monitor_mode_name`. -/
def monitorModeName : MonitorMode → List UInt8
  | .unknown => ascii "UNKNOWN"
  | .normal => ascii "NORMAL"
  | .warning => ascii "WARNING"
  | .error => ascii "ERROR"

/-- The value of the enumerator, as a byte: `MODE_UNKNOWN` is `-1`. -/
def MonitorMode.toByte : MonitorMode → UInt8
  | .unknown => 0xFF
  | .normal => 0
  | .warning => 1
  | .error => 2

/-- `monitor_measurement_t`. -/
structure MonitorMeasurement where
  tempC : Int16
  humidityPct : UInt8
  lightPct : UInt8
  batteryPct : UInt8
  deriving DecidableEq

end SubmarineMonitor
