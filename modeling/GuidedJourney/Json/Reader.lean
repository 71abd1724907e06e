import GuidedJourney.Json.Token

namespace GuidedJourney.Json

/-- An unfinished list or object; its members are kept in reverse. -/
inductive Frame where
  | list (items : List Value)
  | obj (fields : List (String × Value)) (key : String)

inductive Expect where
  | value
  | valueOrClose
  | key
  | keyOrClose
  | colon
  | after
  | finished (value : Value)

structure Progress where
  frames : List Frame
  expect : Expect

def Progress.place (frames : List Frame) (v : Value) : Progress :=
  match frames with
  | [] => ⟨[], .finished v⟩
  | .list items :: rest => ⟨.list (v :: items) :: rest, .after⟩
  | .obj fields key :: rest => ⟨.obj ((key, v) :: fields) key :: rest, .after⟩

def Progress.close (isList : Bool) (frames : List Frame) : Except Fault Progress :=
  match isList, frames with
  | true, .list items :: rest => .ok (place rest (.list items.reverse))
  | false, .obj fields _ :: rest => .ok (place rest (.obj (Fields.ofPairs fields.reverse)))
  | _, _ => .error unreadable

def Progress.step (p : Progress) (t : Token) : Except Fault Progress :=
  match p.expect, t with
  | .value, .scalar v | .valueOrClose, .scalar v => .ok (place p.frames v)
  | .value, .opening l | .valueOrClose, .opening l =>
    .ok (if l then ⟨.list [] :: p.frames, .valueOrClose⟩ else ⟨.obj [] "" :: p.frames, .keyOrClose⟩)
  | .valueOrClose, .closing true => close true p.frames
  | .keyOrClose, .closing false => close false p.frames
  | .key, .scalar (.str k) | .keyOrClose, .scalar (.str k) => match p.frames with
    | .obj fields _ :: rest => .ok ⟨.obj fields k :: rest, .colon⟩
    | _ => .error unreadable
  | .colon, .colon => .ok ⟨p.frames, .value⟩
  | .after, .closing l => close l p.frames
  | .after, .comma => match p.frames with
    | .list _ :: _ => .ok ⟨p.frames, .value⟩
    | .obj .. :: _ => .ok ⟨p.frames, .key⟩
    | [] => .error unreadable
  | _, _ => .error unreadable

def read (s : String) : Except Fault Value := do
  let ts ← tokens .between [] s.toList
  let p ← ts.reverse.foldlM Progress.step ⟨[], .value⟩
  match p.expect with
  | .finished v => return v
  | _ => throw unreadable

end GuidedJourney.Json
