import TeenpattiUserServer.Config.Lookup
import TeenpattiUserServer.UserServer.Options

/-! `ReadInt`: numbers in a configuration file. `atol`, cut to an `int`, is what `atoi` gives. -/

namespace TeenpattiUserServer.Config

open UserServer

namespace IniFile

variable (ini : IniFile)

/-- `GetItemValue` of a number, for which the buffer has 100 bytes. -/
def getItemInt (sectionName keyName : List UInt8) (fuel : Nat) : Option (Option Int32) :=
  (ini.getItemValue sectionName keyName 100 fuel).map fun value =>
    if value.length = 0 then none else some (atoi (value.takeWhile (· ≠ 0)))

def readInt (sectionName keyName : List UInt8) (defaultValue : Int32) (fuel : Nat) : Option Int32 :=
  (ini.getItemInt sectionName keyName fuel).map fun value => value.getD defaultValue

end IniFile

/-- What `ReadInt` reads, unless it takes the default. -/
def numberRead (content sectionName keyName : List UInt8) : Option Int32 :=
  (assigned content sectionName keyName).map fun value => atoi (IniFile.fitted value 100)

/-- `ReadInt` reads the number at the front of what fits of the key's value. -/
theorem readInt_assigned {content sectionName keyName : List UInt8} {fuel : Nat} (name : Identifier keyName)
    (enough : content.length + 1 < fuel) (defaultValue : Int32) :
    (openFile (some content)).readInt sectionName keyName defaultValue fuel =
      some ((numberRead content sectionName keyName).getD defaultValue) := by
  rw [IniFile.readInt, IniFile.getItemInt, getItemValue_assigned name enough (by decide), numberRead,
    Option.map_some, Option.map_some]
  cases found : assigned content sectionName keyName with
  | none => rfl
  | some value =>
    obtain ⟨nonempty, text⟩ := fitted_assigned name found (show 2 < 100 by decide)
    simp only [Option.map_some, Option.getD_some, if_neg nonempty, text]

end TeenpattiUserServer.Config
