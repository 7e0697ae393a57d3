import Polyglot.Unicode.Age
import Polyglot.Unicode.BinaryProperty
import Polyglot.Unicode.Script
import Polyglot.Unicode.Segmentation

/-!
Sets of code points by the names of properties and of their values.
-/
namespace Polyglot.Unicode

namespace Property

/-- The general categories and their groups, under their names. Surrogates have no name here:
they are no characters. -/
def categories : List NamedSet :=
  [
    ⟨["Any"], .runs ["0 1114112"]⟩,
    ⟨["ASCII"], .runs ["0 128"]⟩,
    ⟨["Assigned"], .diff (.runs ["0 1114112"]) (.category [.unassigned])⟩,
    ⟨["L", "Letter"], .category Category.letters⟩,
    ⟨["LC", "Cased_Letter"], .category Category.cased⟩,
    ⟨["Lu", "Uppercase_Letter"], .category [.uppercase]⟩,
    ⟨["Ll", "Lowercase_Letter"], .category [.lowercase]⟩,
    ⟨["Lt", "Titlecase_Letter"], .category [.titlecase]⟩,
    ⟨["Lm", "Modifier_Letter"], .category [.modifier]⟩,
    ⟨["Lo", "Other_Letter"], .category [.other]⟩,
    ⟨["M", "Mark", "Combining_Mark"], .category Category.marks⟩,
    ⟨["Mn", "Nonspacing_Mark"], .category [.nonspacing]⟩,
    ⟨["Mc", "Spacing_Mark"], .category [.spacing]⟩,
    ⟨["Me", "Enclosing_Mark"], .category [.enclosing]⟩,
    ⟨["N", "Number"], .category Category.numbers⟩,
    ⟨["Nd", "Decimal_Number", "digit"], .category [.decimal]⟩,
    ⟨["Nl", "Letter_Number"], .category [.letterNumber]⟩,
    ⟨["No", "Other_Number"], .category [.otherNumber]⟩,
    ⟨["P", "Punctuation", "punct"], .category Category.punctuations⟩,
    ⟨["Pc", "Connector_Punctuation"], .category [.connector]⟩,
    ⟨["Pd", "Dash_Punctuation"], .category [.dash]⟩,
    ⟨["Ps", "Open_Punctuation"], .category [.opening]⟩,
    ⟨["Pe", "Close_Punctuation"], .category [.closing]⟩,
    ⟨["Pi", "Initial_Punctuation"], .category [.initial]⟩,
    ⟨["Pf", "Final_Punctuation"], .category [.final]⟩,
    ⟨["Po", "Other_Punctuation"], .category [.punctuation]⟩,
    ⟨["S", "Symbol"], .category Category.symbols⟩,
    ⟨["Sm", "Math_Symbol"], .category [.math]⟩,
    ⟨["Sc", "Currency_Symbol"], .category [.currency]⟩,
    ⟨["Sk", "Modifier_Symbol"], .category [.modifierSymbol]⟩,
    ⟨["So", "Other_Symbol"], .category [.symbol]⟩,
    ⟨["Z", "Separator"], .category Category.separators⟩,
    ⟨["Zs", "Space_Separator"], .category [.space]⟩,
    ⟨["Zl", "Line_Separator"], .category [.line]⟩,
    ⟨["Zp", "Paragraph_Separator"], .category [.paragraph]⟩,
    ⟨["C", "Other"], .category Category.others⟩,
    ⟨["Cc", "Control", "cntrl"], .category [.control]⟩,
    ⟨["Cf", "Format"], .category [.format]⟩,
    ⟨["Co", "Private_Use"], .category [.privateUse]⟩,
    ⟨["Cn", "Unassigned"], .category [.unassigned]⟩
  ]

/-- The set that a single name stands for: a binary property, a general category or a script. -/
def named? (name : List Char) : Option CodeSet :=
  let plain := NamedSet.plainName name
  (NamedSet.find? BinaryProperty.table plain)
    <|> (NamedSet.find? categories plain)
    <|> ((Script.find? plain).map Script.own)

/-- The code points for which a property has a value. An age stands for all up to it. -/
def valued? (name value : List Char) : Option CodeSet :=
  let value := NamedSet.plainName value
  match NamedSet.plainName name with
  | "gc" | "generalcategory" => NamedSet.find? categories value
  | "sc" | "script" => (Script.find? value).map Script.own
  | "scx" | "scriptextensions" => (Script.find? value).map Script.extended
  | "age" => Age.find? value
  | "gcb" | "graphemeclusterbreak" => NamedSet.find? Segmentation.graphemeBreak value
  | "wb" | "wordbreak" => NamedSet.find? Segmentation.wordBreak value
  | "sb" | "sentencebreak" => NamedSet.find? Segmentation.sentenceBreak value
  | _ => none

end Property

end Polyglot.Unicode
