import FramedLink.Settings.Line

/-! Settings from a text. Later lines win over earlier ones, and the first line that is refused refuses
the text. -/

namespace FramedLink.Settings

def ofLines (number : Nat) (settings : Settings) : List Bytes → Except Fault Settings
  | [] => .ok settings
  | line :: lines =>
    match Setting.ofLine line with
    | .error fault => .error ⟨fault.cause, number, fault.key⟩
    | .ok none => ofLines (number + 1) settings lines
    | .ok (some setting) => ofLines (number + 1) (setting.apply settings) lines

def lines (text : Bytes) : List Bytes :=
  text.splitOn 10

def parse (text : Bytes) : Except Fault Settings :=
  ofLines 1 {} (lines text)

/-- The settings in the file of the given path and contents, if there is one. No path stands for no
settings of one's own. -/
def ofFile (path : Bytes) (contents : Option Bytes) : Except Fault Settings :=
  if path = [] then .ok {}
  else match contents with
    | none => .error ⟨.fileNotFound, 0, path⟩
    | some text => parse text

end FramedLink.Settings
