import Mathlib.Data.List.Basic

/-! `IniFile`: a configuration file in memory, and a copy of it in lower case in which
sections and keys are searched. Pointers into the two are offsets, and the byte behind
the last one is 0. -/

namespace TeenpattiUserServer.Config

def isBlank (byte : UInt8) : Bool := byte = 32 || byte = 9

def isLineEnd (byte : UInt8) : Bool := byte = 13 || byte = 10

/-- What may stand behind a name. -/
def endsName (byte : UInt8) : Bool := isBlank byte || byte = 61 || isLineEnd byte

def toLowerByte (cb : UInt8) : UInt8 := if 65 ≤ cb ∧ cb ≤ 90 then cb + 32 else cb

def toLower (src : List UInt8) : List UInt8 := src.map toLowerByte

/-- The byte at a pointer. -/
def byteAt (text : List UInt8) (p : Nat) : UInt8 := text.getD p 0

/-- The first place of a string that has no 0 in it, up to the 0 that ends the text. -/
def strstr (charSet : List UInt8) : List UInt8 → Option Nat
  | [] => if charSet.isEmpty then some 0 else none
  | byte :: rest =>
    if charSet.isPrefixOf (byte :: rest) then some 0
    else if byte = 0 then none
    else (strstr charSet rest).map (· + 1)

/-- A pointer that goes on over such bytes, up to `stop`. -/
def skip (passes : UInt8 → Bool) (text : List UInt8) (stop p : Nat) : Nat :=
  p + (((text.take stop).drop p).takeWhile passes).length

structure IniFile where
  content : List UInt8
  shadow : List UInt8
  isOpen : Bool

/-- `OpenFile`, with what can be read of the file. -/
def openFile : Option (List UInt8) → IniFile
  | none => ⟨[], [], false⟩
  | some bytes => ⟨bytes, toLower bytes, true⟩

/-- `SearchMarchStr`, if its loop ends within the fuel. Right behind a place that does not match,
the byte in front is not looked at. -/
def searchMarchStr (text charSet : List UInt8) : Nat → Nat → Option (Option Nat)
  | 0, _ => none
  | fuel + 1, tempBegin =>
    match strstr charSet (text.drop tempBegin) with
    | none => some none
    | some offset =>
      let find := tempBegin + offset
      let front := byteAt text (find - 1)
      if tempBegin < find ∧ ¬ isBlank front ∧ ¬ isLineEnd front then
        searchMarchStr text charSet fuel (find + charSet.length)
      else if endsName (byteAt text (find + charSet.length)) then some (some find)
      else searchMarchStr text charSet fuel (find + charSet.length)

/-- `LocateStr`. The search itself goes on behind `stop`. -/
def locateStr (text charSet : List UInt8) (fuel start stop : Nat) : Option (Option Nat) :=
  if stop ≤ start then some none
  else
    (searchMarchStr text charSet fuel start).map fun found =>
      found.bind fun find => if stop < find + charSet.length then none else some find

/-- The scan for the next line that begins with `[`: so many bytes are in front of it. -/
def sectionLength : Bool → List UInt8 → Nat
  | _, [] => 0
  | first, byte :: rest =>
    if first ∧ byte = 91 then 0
    else if byte = 0 then 0
    else if isLineEnd byte then sectionLength true rest + 1
    else if ¬ isBlank byte then sectionLength false rest + 1
    else sectionLength first rest + 1

namespace IniFile

variable (ini : IniFile)

def locateSection (sectionName : List UInt8) (fuel : Nat) : Option (Option (Nat × Nat)) :=
  let lowerSection := toLower ([91] ++ sectionName ++ [93])
  (locateStr ini.shadow lowerSection fuel 0 ini.shadow.length).map fun found =>
    found.map fun onShadow =>
      let size := ini.content.length
      let lineEnd := skip (fun byte => !isLineEnd byte) ini.content size (onShadow + lowerSection.length)
      let sectionBegin := skip isLineEnd ini.content size lineEnd
      (sectionBegin, sectionBegin + sectionLength true (ini.content.drop sectionBegin))

/-- `LocateKeyValue`. Without a `=` behind the name, the search goes on at what is there. -/
def locateKeyValue (keyName : List UInt8) : Nat → Nat → Nat → Option (Option (Nat × Nat))
  | 0, _, _ => none
  | fuel + 1, sectionBegin, sectionEnd =>
    if sectionEnd ≤ sectionBegin then some none
    else
      match locateStr ini.shadow (toLower keyName) fuel sectionBegin sectionEnd with
      | none => none
      | some none => some none
      | some (some onShadow) =>
        let behind := skip isBlank ini.content sectionEnd (onShadow + keyName.length)
        if byteAt ini.content behind ≠ 61 then locateKeyValue keyName fuel behind sectionEnd
        else
          let valueBegin := skip isBlank ini.content sectionEnd (behind + 1)
          let valueEnd := skip (fun byte => !(byte = 9 || isLineEnd byte)) ini.content sectionEnd valueBegin
          if valueBegin < valueEnd then some (some (valueBegin, valueEnd)) else some none

/-- What of a value fits a buffer of `size` bytes, without the first half of a character. -/
def fitted (value : List UInt8) (size : Nat) : List UInt8 :=
  let copied := value.take (size - 1)
  if copied.length = size - 1 ∧ 127 < copied.getLastD 0 then copied.dropLast else copied

/-- `GetItemValue`, with the bytes it leaves in the buffer; it returns their number. -/
def getItemValue (sectionName keyName : List UInt8) (size fuel : Nat) : Option (List UInt8) :=
  if ¬ ini.isOpen then some []
  else if size = 0 then some []
  else
    match ini.locateSection sectionName fuel with
    | none => none
    | some none => some []
    | some (some (sectionBegin, sectionEnd)) =>
      (ini.locateKeyValue keyName fuel sectionBegin sectionEnd).map fun found =>
        match found with
        | none => []
        | some (valueBegin, valueEnd) => fitted ((ini.content.take valueEnd).drop valueBegin) size

/-- `ReadString`, which makes a string of what is in the buffer up to the first 0. -/
def readString (sectionName keyName defaultValue : List UInt8) (fuel : Nat) : Option (List UInt8) :=
  (ini.getItemValue sectionName keyName 1024 fuel).map fun value =>
    if value.length = 0 then defaultValue else value.takeWhile (· ≠ 0)

end IniFile

end TeenpattiUserServer.Config
