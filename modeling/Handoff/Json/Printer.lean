import Handoff.Json.Value
import Handoff.Text.Hex

namespace Handoff.Json

def escapeChar (c : Char) : List Char :=
  if c = '"' then ['\\', '"']
  else if c = '\\' then ['\\', '\\']
  else if c = '\x08' then ['\\', 'b']
  else if c = '\x0c' then ['\\', 'f']
  else if c = '\n' then ['\\', 'n']
  else if c = '\r' then ['\\', 'r']
  else if c = '\t' then ['\\', 't']
  else if c.toNat < 0x20 then
    ['\\', 'u', '0', '0', Text.Hex.digit (c.toNat / 16), Text.Hex.digit c.toNat]
  else [c]

def quoteChars (cs : List Char) : List Char := '"' :: (cs.flatMap escapeChar ++ ['"'])

def Number.chars : Number → List Char
  | .whole n => Text.intChars n
  | .scaled m e => Text.intChars m ++ 'e' :: Text.intChars e

mutual

def chars : Json → List Char
  | .null => ['n', 'u', 'l', 'l']
  | .bool true => ['t', 'r', 'u', 'e']
  | .bool false => ['f', 'a', 'l', 's', 'e']
  | .num n => n.chars
  | .str s => quoteChars s.toList
  | .arr [] => ['[', ']']
  | .arr (j :: js) => '[' :: (j.chars ++ itemsChars js)
  | .obj [] => ['\x7b', '\x7d']
  | .obj ((k, j) :: ms) => '\x7b' :: (quoteChars k.toList ++ ':' :: (j.chars ++ membersChars ms))

def itemsChars : List Json → List Char
  | [] => [']']
  | j :: js => ',' :: (j.chars ++ itemsChars js)

def membersChars : List (String × Json) → List Char
  | [] => ['\x7d']
  | (k, j) :: ms => ',' :: (quoteChars k.toList ++ ':' :: (j.chars ++ membersChars ms))

end

def compact (j : Json) : String := String.ofList j.chars

def newline (depth : Nat) : List Char := '\n' :: List.replicate (2 * depth) ' '

mutual

def prettyChars (depth : Nat) : Json → List Char
  | .arr [] => ['[', ']']
  | .arr (j :: js) =>
    '[' :: (newline (depth + 1) ++ prettyChars (depth + 1) j ++ prettyItems depth js)
  | .obj [] => ['\x7b', '\x7d']
  | .obj ((k, j) :: ms) =>
    '\x7b' :: (newline (depth + 1) ++ quoteChars k.toList ++ [':', ' '] ++
      prettyChars (depth + 1) j ++ prettyMembers depth ms)
  | j => j.chars

def prettyItems (depth : Nat) : List Json → List Char
  | [] => newline depth ++ [']']
  | j :: js => ',' :: (newline (depth + 1) ++ prettyChars (depth + 1) j ++ prettyItems depth js)

def prettyMembers (depth : Nat) : List (String × Json) → List Char
  | [] => newline depth ++ ['\x7d']
  | (k, j) :: ms =>
    ',' :: (newline (depth + 1) ++ quoteChars k.toList ++ [':', ' '] ++
      prettyChars (depth + 1) j ++ prettyMembers depth ms)

end

def pretty (j : Json) : String := String.ofList (j.prettyChars 0)

end Handoff.Json
