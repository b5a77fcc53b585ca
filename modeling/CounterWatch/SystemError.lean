import CounterWatch.ErrorNumber

/-!
# SystemError — why an operation of the system failed

An error is either a number the system returned or one raised by this library, which has a kind and
mostly a text of its own.  Kind and text of every error are decided here and in the tables of
numbers.
-/

namespace CounterWatch

/-- A failed operation. -/
inductive SystemError where
  /-- The number a system call failed with. -/
  | os (number : Int)
  /-- A failure found by this library, in its own words. -/
  | custom (kind : ErrorKind) (text : String)
  /-- A failure with nothing to say but its kind. -/
  | bare (kind : ErrorKind)
  deriving DecidableEq, Repr

namespace SystemError

/-! ## The numbers this library deals with -/

abbrev notPermitted : SystemError := .os 1
abbrev noEntry : SystemError := .os 2
abbrev inputOutput : SystemError := .os 5
abbrev badDescriptor : SystemError := .os 9
abbrev outOfMemory : SystemError := .os 12
abbrev notADirectory : SystemError := .os 20
abbrev isADirectory : SystemError := .os 21
abbrev invalidArgument : SystemError := .os 22
abbrev tooManyOpenFiles : SystemError := .os 24
abbrev notATerminal : SystemError := .os 25
abbrev nameTooLong : SystemError := .os 36
abbrev valueTooLarge : SystemError := .os 75

/-- What sort of failure the error is. -/
def kind : SystemError → ErrorKind
  | .os number => ErrorNumber.kind number
  | .custom kind _ => kind
  | .bare kind => kind

/-- The error in words. -/
def message : SystemError → String
  | .os number => ErrorNumber.text number ++ " (os error " ++ toString number ++ ")"
  | .custom _ text => text
  | .bare kind => kind.description

/-- The number of an error that came from the system. -/
def number? : SystemError → Option Int
  | .os number => some number
  | _ => none

end SystemError
end CounterWatch
