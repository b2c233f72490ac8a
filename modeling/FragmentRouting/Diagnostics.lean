import FragmentRouting.Fault

/-!
What the library tells about its work beside its results: log entries, and the reports of malformed
queries that go to a sink. Operations return their notices in order.
-/
namespace FragmentRouting

inductive LogLevel where
  | debug
  | warning
  | error
  deriving DecidableEq, Repr

/-- Something told beside a result. A report is a call of the sink. -/
inductive Notice where
  | log (level : LogLevel) (message : Text)
  | report (query : Text) (fault : Fault)
  deriving DecidableEq, Repr

/-- An exception of the caller's code. One that is not ordinary is meant to end the program, and one
that has no text raises another when it is asked for it. -/
inductive Raised where
  | texted (ordinary : Bool) (text : Text)
  | textless (ordinary : Bool) (instead : Raised)
  deriving DecidableEq, Repr

namespace Raised

def ordinary : Raised → Bool
  | .texted ordinary _ => ordinary
  | .textless ordinary _ => ordinary

def text : Raised → Except Raised Text
  | .texted _ text => .ok text
  | .textless _ instead => .error instead

end Raised

/-- A function that malformed queries are reported to. It may count as unset, log, and raise. -/
structure Sink where
  truthy : Bool := true
  call : Text → Fault → Except Raised Unit × List (LogLevel × Text)

namespace Sink

/-- The sink that logs what is reported. -/
def logging : Sink where
  call query fault :=
    (.ok (), [(.error, "Could not parse query string ".toList ++ query.quoted ++ ": ".toList ++
      fault.message)])

def orLogging : Option Sink → Sink
  | some sink => if sink.truthy then sink else logging
  | none => logging

/-- Reports a query. An ordinary exception of the sink ends in the log. -/
def deliver (sink : Sink) (query : Text) (fault : Fault) : Except Raised Unit × List Notice :=
  let (result, logged) := sink.call query fault
  let told := .report query fault :: logged.map fun (level, message) => .log level message
  match result with
  | .ok () => (.ok (), told)
  | .error raised =>
    if raised.ordinary then
      match raised.text with
      | .ok text => (.ok (), told ++ [.log .error ("Diagnostic sink error: ".toList ++ text)])
      | .error other => (.error other, told)
    else (.error raised, told)

end Sink

end FragmentRouting
