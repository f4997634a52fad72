/-!
Signals by number and by name.
-/

namespace FlightBlocks.Shell.Signal

/-- The names of the signals from 0 on. The first one stands for the end of the shell. -/
def names : List String :=
  ["EXIT", "HUP", "INT", "QUIT", "ILL", "TRAP", "ABRT", "BUS", "FPE", "KILL", "USR1", "SEGV",
    "USR2", "PIPE", "ALRM", "TERM", "16", "CHLD", "CONT", "STOP", "TSTP", "TTIN", "TTOU", "URG",
    "XCPU", "XFSZ", "VTALRM", "PROF", "WINCH", "IO", "PWR", "SYS", "32", "33", "RTMIN",
    "RTMIN+1", "RTMIN+2", "RTMIN+3", "RTMIN+4", "RTMIN+5", "RTMIN+6", "RTMIN+7", "RTMIN+8",
    "RTMIN+9", "RTMIN+10", "RTMIN+11", "RTMIN+12", "RTMIN+13", "RTMIN+14", "RTMIN+15",
    "RTMAX-14", "RTMAX-13", "RTMAX-12", "RTMAX-11", "RTMAX-10", "RTMAX-9", "RTMAX-8", "RTMAX-7",
    "RTMAX-6", "RTMAX-5", "RTMAX-4", "RTMAX-3", "RTMAX-2", "RTMAX-1", "RTMAX"]

def name (n : Nat) : String := names.getD n (toString n)

def ofText? (least : Nat) (s : String) : Option Nat :=
  if !s.isEmpty && s.toList.all Char.isDigit then
    s.toNat?.bind fun n => if n < names.length then some n else none
  else
    let wanted := s.toUpper
    (names.findIdx? (· == wanted)).bind fun n => if least ≤ n then some n else none

def isHarmless (n : Nat) : Bool := [0, 17, 18, 23, 28].contains n

def isCompelling (n : Nat) : Bool := n == 9 || n == 19

def effects : List String :=
  ["Hangup", "Interrupt", "Quit", "Illegal instruction", "Trace/breakpoint trap", "Aborted",
    "Bus error", "Floating point exception", "Killed", "User defined signal 1",
    "Segmentation fault", "User defined signal 2", "Broken pipe", "Alarm clock", "Terminated",
    "Stack fault", "Child exited", "Continued", "Stopped (signal)", "Stopped",
    "Stopped (tty input)", "Stopped (tty output)", "Urgent I/O condition",
    "CPU time limit exceeded", "File size limit exceeded", "Virtual timer expired",
    "Profiling timer expired", "Window changed", "I/O possible", "Power failure",
    "Bad system call", "Unknown signal 32", "Unknown signal 33"]

def effect (n : Nat) : String :=
  effects.getD (n - 1) ("Real-time signal " ++ toString (n - 34))

def notice (n : Nat) : String := if n == 2 || n == 13 then "" else effect n ++ "\n"

end FlightBlocks.Shell.Signal
