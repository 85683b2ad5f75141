/-
Stun/Log/Quoted.lean

A text in double quotes such that every character of it can be seen.

Quotes, backslashes and the usual controls have short escapes.  What shows
nothing of its own, or would join the character before it, is written as its
number in hexadecimal.
-/
import Stun.Log.Logger
import Stun.Unicode.Extender
import Stun.Unicode.Unprintable

namespace Stun.Log

/-- A character as it stands between quotes. -/
def quoteChar (c : Char) : List Char :=
  match c with
  | '"' => ['\\', '"']
  | '\\' => ['\\', '\\']
  | '\n' => ['\\', 'n']
  | '\r' => ['\\', 'r']
  | '\t' => ['\\', 't']
  | '\x00' => ['\\', '0']
  | c =>
    if Unicode.isExtender c || Unicode.isUnprintable c then
      '\\' :: 'u' :: '\x7b' :: (Nat.toDigits 16 c.toNat ++ ['\x7d'])
    else
      [c]

/-- A text between quotes. -/
def quote (s : String) : String := "\"" ++ String.ofList (s.toList.flatMap quoteChar) ++ "\""

/-- A handle with the names of its fields. -/
def Logger.text (l : Logger) : String :=
  let component := match l.component? with
    | some name => "Some(" ++ quote name ++ ")"
    | none => "None"
  s!"Logger \x7b level: {l.level.title}, component: {component} \x7d"

end Stun.Log
