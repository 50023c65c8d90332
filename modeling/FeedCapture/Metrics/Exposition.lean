import FeedCapture.Metrics
import FeedCapture.Number.Binary64

/-!
# The text exposition of the counters

The families in the order of their names, each with its help text, its type and one line for every
series in the order of the labels.  A family without series is left out.  A counter is printed as a
double, so beyond 53 bits it is rounded.

## Main definitions

* `Metrics.exposition`
-/

namespace FeedCapture.Metrics

/-- A label value between quotation marks: the backslash, the quotation mark and the line feed are
written with a backslash. -/
def escapeLabel : List Char → List Char
  | [] => []
  | c :: rest =>
    (if c = '\\' then ['\\', '\\']
     else if c = '"' then ['\\', '"']
     else if c = '\n' then ['\\', 'n']
     else [c]) ++ escapeLabel rest

/-- The two lines that introduce a family. -/
def header (name help kind : String) : String :=
  "# HELP " ++ name ++ " " ++ help ++ "\n# TYPE " ++ name ++ " " ++ kind ++ "\n"

/-- The line of one series. -/
def seriesLine (name : String) (series : String × Nat) : String :=
  name ++ "\x7bsource=\"" ++ String.ofList (escapeLabel series.1.toList) ++ "\"\x7d " ++
    (Dyadic.ofNat series.2).render ++ "\n"

/-- A family of counters; nothing when it has no series. -/
def counterFamily (name help : String) (s : Series) : String :=
  match s.sorted with
  | [] => ""
  | series => header name help "counter" ++ String.join (series.map (seriesLine name))

/-- A whole number, with a sign if it is negative. -/
def integerText (n : Int) : String :=
  (if n < 0 then "-" else "") ++ (Dyadic.ofNat n.natAbs).render

/-- The text of all families. -/
def exposition (m : Metrics) : String :=
  header "trackfeed_active_connections" "Connections currently registered" "gauge" ++
  "trackfeed_active_connections " ++ integerText m.activeConnections ++ "\n" ++
  counterFamily "trackfeed_bytes_total" "Payload bytes delivered to the bus" m.bytes ++
  counterFamily "trackfeed_connects_total" "Successful dials" m.connects ++
  counterFamily "trackfeed_dial_failures_total" "Failed dial attempts" m.dialFailures ++
  counterFamily "trackfeed_disconnects_total" "Connections torn down" m.disconnects ++
  counterFamily "trackfeed_messages_total" "Messages delivered to the bus" m.messages

end FeedCapture.Metrics
