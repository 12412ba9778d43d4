import FramedLink.Settings.Line

/-! Settings as text, one line for each of the five keys. -/

namespace FramedLink.Setting

def boolText (value : Bool) : Bytes :=
  Bytes.ofText (if value then "true" else "false")

def key : Setting → Bytes
  | name _ => nameKey
  | version _ => versionKey
  | maxPacketSize _ => maxPacketSizeKey
  | encoding _ => encodingKey
  | verbose _ => verboseKey

def valueText : Setting → Bytes
  | name value => value
  | version value => value.text
  | maxPacketSize value => Numeral.decimal value.toNat
  | encoding value => boolText (value = .text)
  | verbose value => boolText value

def line (setting : Setting) : Bytes :=
  setting.key ++ Bytes.ofText " = " ++ setting.valueText

end FramedLink.Setting

namespace FramedLink.Settings

def toList (settings : Settings) : List Setting :=
  [.name settings.name, .version settings.version, .maxPacketSize settings.maxPacketSize,
    .encoding settings.encoding, .verbose settings.verbose]

def render (settings : List Setting) : Bytes :=
  settings.flatMap fun setting => setting.line ++ Bytes.ofText "\n"

end FramedLink.Settings
