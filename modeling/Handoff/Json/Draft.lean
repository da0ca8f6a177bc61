import Handoff.Json.Token
/-!
What could be read of a JSON text. A draft holds everything up to the first place where the text
stops being JSON; `broken` stands for a value that could not be read, and an array or object whose
end was not reached is not closed. A text is JSON exactly when its draft is whole.
-/

namespace Handoff.Json

inductive Draft
  | null
  | bool (b : Bool)
  | num (n : Number)
  | str (s : Option String)
  | arr (items : List Draft) (closed : Bool)
  | obj (members : List (Option String × Draft)) (closed : Bool)
  | broken

/-- An array or object whose end has not been reached, its parts in reverse. In `member` the value
under `key` is still to come. -/
inductive Frame
  | arr (done : List Draft)
  | obj (done : List (Option String × Draft))
  | member (done : List (Option String × Draft)) (key : Option String)

inductive Expect
  | value
  | valueOrEnd
  | key
  | keyOrEnd
  | colon
  | commaOrEnd

/-- What is there when the text breaks off while `d` is being read inside the frame. -/
def Frame.leaveOpen (d : Draft) : Frame → Draft
  | .arr done => .arr (d :: done).reverse false
  | .obj done => .obj done.reverse false
  | .member done k => .obj ((k, d) :: done).reverse false

def breakOff (frames : List Frame) : Draft := frames.foldl Frame.leaveOpen .broken

def place (d : Draft) : List Frame → Sum Draft (List Frame)
  | [] => .inl d
  | .arr done :: fs => .inr (.arr (d :: done) :: fs)
  | .member done k :: fs => .inr (.obj ((k, d) :: done) :: fs)
  | .obj done :: fs => .inr (.obj done :: fs)

def Token.scalar? : Token → Option Draft
  | .null => some .null
  | .bool b => some (.bool b)
  | .num n => some (.num n)
  | .str s => some (.str s)
  | _ => none

def close? : Token → List Frame → Option (Draft × List Frame)
  | .endArray, .arr done :: fs => some (.arr done.reverse true, fs)
  | .endObject, .obj done :: fs => some (.obj done.reverse true, fs)
  | _, _ => none

def build : List Frame → Expect → List Token → Draft × List Token
  | fs, _, [] => (breakOff fs, [])
  | fs, .value, t :: ts => opening fs t ts
  | fs, .valueOrEnd, t :: ts =>
    match close? t fs with
    | some (d, fs) => completed d fs ts
    | none => opening fs t ts
  | .obj done :: fs, .key, .str k :: ts => build (.member done k :: fs) .colon ts
  | .obj done :: fs, .keyOrEnd, .str k :: ts => build (.member done k :: fs) .colon ts
  | fs, .keyOrEnd, t :: ts =>
    match close? t fs with
    | some (d, fs) => completed d fs ts
    | none => (breakOff fs, [])
  | fs, .colon, .colon :: ts => build fs .value ts
  | .arr done :: fs, .commaOrEnd, .comma :: ts => build (.arr done :: fs) .value ts
  | .obj done :: fs, .commaOrEnd, .comma :: ts => build (.obj done :: fs) .key ts
  | fs, .commaOrEnd, t :: ts =>
    match close? t fs with
    | some (d, fs) => completed d fs ts
    | none => (breakOff fs, [])
  | fs, _, _ :: _ => (breakOff fs, [])
where
  opening (fs : List Frame) (t : Token) (ts : List Token) : Draft × List Token :=
    match t with
    | .beginArray => build (.arr [] :: fs) .valueOrEnd ts
    | .beginObject => build (.obj [] :: fs) .keyOrEnd ts
    | t => match t.scalar? with
      | some d => completed d fs ts
      | none => (breakOff fs, [])
  completed (d : Draft) (fs : List Frame) (ts : List Token) : Draft × List Token :=
    match place d fs with
    | .inl d => (d, ts)
    | .inr fs => build fs .commaOrEnd ts

def Draft.read (source : Source) : Draft × List Token := build [] .value (scan source)

mutual

def Draft.isWhole : Draft → Bool
  | .arr ds closed => closed && areWhole ds
  | .obj ms closed => closed && membersWhole ms
  | .broken => false
  | _ => true

def areWhole : List Draft → Bool
  | [] => true
  | d :: ds => d.isWhole && areWhole ds

def membersWhole : List (Option String × Draft) → Bool
  | [] => true
  | (_, d) :: ms => d.isWhole && membersWhole ms

end

end Handoff.Json
