/-
Stun/Log/Level.lean

How severe a record is, from traces up to errors, and the names by which a
level is chosen.  A name may be written in any case, with blanks around it.
-/

namespace Stun.Log

/-! ### Levels -/

/-- The severity of a record. -/
inductive Level where
  | trace
  | debug
  | info
  | warn
  | error
deriving DecidableEq, Repr

namespace Level

/-- The place of a level among the levels, from the least severe. -/
def rank : Level → Nat
  | trace => 0
  | debug => 1
  | info => 2
  | warn => 3
  | error => 4

/-- Every level, from the least severe. -/
def every : List Level := [trace, debug, info, warn, error]

/-- `l` is at least as severe as `threshold`. -/
def atLeast (l threshold : Level) : Bool := threshold.rank ≤ l.rank

/-- The name of a level in a line. -/
def name : Level → String
  | trace => "TRACE"
  | debug => "DEBUG"
  | info => "INFO"
  | warn => "WARN"
  | error => "ERROR"

/-- The name of a level as a setting. -/
def title : Level → String
  | trace => "Trace"
  | debug => "Debug"
  | info => "Info"
  | warn => "Warn"
  | error => "Error"

end Level

/-! ### Errors -/

/-- Why logging was refused. -/
inductive Error where
  /-- The file of the log could not be used, with the system's reason. -/
  | io (reason : String)
  /-- No level has this name. -/
  | invalidLevel (name : String)
  /-- The captured lines were left unusable. -/
  | poisoned
deriving DecidableEq, Repr

/-- The sentence that reports a cause. -/
def Error.message : Error → String
  | io reason => "I/O error: " ++ reason
  | invalidLevel name => "Invalid log level: " ++ name
  | poisoned => "Log capture buffer poisoned"

/-- The cause behind a cause, in words. -/
def Error.source? : Error → Option String
  | io reason => some reason
  | _ => none

/-! ### Names of levels -/

/-- The characters that count as blanks: Unicode's `White_Space`. -/
def isBlank (c : Char) : Bool :=
  let n := c.toNat
  (9 ≤ n && n ≤ 13) || n == 0x20 || n == 0x85 || n == 0xA0 || n == 0x1680 ||
    (0x2000 ≤ n && n ≤ 0x200A) || n == 0x2028 || n == 0x2029 || n == 0x202F || n == 0x205F ||
    n == 0x3000

/-- What core counts as whitespace is blank. -/
theorem isBlank_of_isWhitespace {c : Char} (h : c.isWhitespace) : isBlank c := by
  simp only [Char.isWhitespace, Bool.or_eq_true, decide_eq_true_eq] at h
  rcases h with ((rfl | rfl) | rfl) | rfl <;> decide

/-- A text without the blanks around it. -/
def trim (cs : List Char) : List Char :=
  ((cs.dropWhile isBlank).reverse.dropWhile isBlank).reverse

/-- The level of a name.  All names are of ASCII letters, and no other
character has one of their letters as its lowercase, so folding those letters
decides. -/
def Level.ofName (name : String) : Except Error Level :=
  match String.ofList ((trim name.toList).map Char.toLower) with
  | "trace" => .ok .trace
  | "debug" => .ok .debug
  | "info" => .ok .info
  | "warn" => .ok .warn
  | "warning" => .ok .warn
  | "error" => .ok .error
  | _ => .error (.invalidLevel name)

end Stun.Log
