import CounterWatch.Path
import CounterWatch.SystemError

/-!
# Failure — what can go wrong with a monitor

A failure says what could not be done, and for which CPU of which group; nearly all of them have the
error of the system behind them as their source.
-/

namespace CounterWatch

/-- One CPU of one package in one events group. -/
structure Leaf where
  group : String
  package : UInt32
  cpu : UInt32
  deriving DecidableEq, Inhabited

/-- The leaf in words. -/
def Leaf.display (l : Leaf) : String :=
  "group=" ++ l.group ++ " pkg=" ++ toString l.package ++ " cpu=" ++ toString l.cpu

/-- A failure of a monitor.  Those of the first five kinds keep it from starting, the others concern
one tick or one group. -/
inductive Failure where
  | targetName (source : SystemError)
  | cgroup (path : Path) (source : SystemError)
  | noPid (path : Path)
  | openEvent (leaf : Leaf) (event : String) (source : SystemError)
  | mapRing (leaf : Leaf) (source : SystemError)
  | readCounts (leaf : Leaf) (source : SystemError)
  | resetCounts (leaf : Leaf) (source : SystemError)
  | enableCounts (leaf : Leaf) (source : SystemError)
  deriving DecidableEq

namespace Failure

/-- The failure in words, without its source. -/
def message : Failure → String
  | .targetName _ => "cannot resolve target name"
  | .cgroup path _ => "cannot open cgroup dir path=" ++ path.display
  | .noPid path => "no pid found in cgroup path=" ++ path.display
  | .openEvent leaf event _ =>
      "failed opening perf event for " ++ leaf.display ++ " event=" ++ event
  | .mapRing leaf _ => "failed to map ring buffer for " ++ leaf.display
  | .readCounts leaf _ => "cannot read perf values for " ++ leaf.display
  | .resetCounts leaf _ => "cannot reset events for " ++ leaf.display
  | .enableCounts leaf _ => "cannot enable events for " ++ leaf.display

/-- The error behind the failure. -/
def source? : Failure → Option SystemError
  | .targetName source | .cgroup _ source | .openEvent _ _ source | .mapRing _ source
  | .readCounts _ source | .resetCounts _ source | .enableCounts _ source => some source
  | .noPid _ => none

/-- Where it went wrong. -/
def leaf? : Failure → Option Leaf
  | .openEvent leaf _ _ | .mapRing leaf _ | .readCounts leaf _ | .resetCounts leaf _
  | .enableCounts leaf _ => some leaf
  | .targetName _ | .cgroup _ _ | .noPid _ => none

/-- The event that could not be counted. -/
def event? : Failure → Option String
  | .openEvent _ event _ => some event
  | _ => none

/-- The failure and its source, one behind the other. -/
def chain (f : Failure) : String :=
  match f.source? with
  | some source => f.message ++ ": " ++ source.message
  | none => f.message

end Failure
end CounterWatch
