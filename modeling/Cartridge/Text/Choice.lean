/-
This file picks one of several named choices by its name, as command-line arguments
do: exactly, or without regard to the case of ASCII letters.
-/

namespace Cartridge.Choice

/-- The text with its ASCII letters in lower case. -/
def foldCase (text : String) : String :=
  String.ofList (text.toList.map Char.toLower)

/-- Whether a text is a name, possibly up to the case of ASCII letters. -/
def isNamed (ignoreCase : Bool) (text name : String) : Bool :=
  if ignoreCase then foldCase text == foldCase name else text == name

/-- The first choice with a given name. -/
def pick? {Item : Type} (nameOf : Item → String) (items : List Item) (ignoreCase : Bool)
    (text : String) : Option Item :=
  items.find? fun item => isNamed ignoreCase text (nameOf item)

/-- The wording when no choice has the name. -/
def unknownMessage (text : String) : String :=
  "invalid variant: " ++ text

end Cartridge.Choice
