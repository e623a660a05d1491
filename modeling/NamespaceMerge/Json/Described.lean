import NamespaceMerge.Json.Basic
import NamespaceMerge.Text.Quoted

/-! The text by which messages show a value. -/

namespace NamespaceMerge.Json

mutual

def describe : Json → Text
  | null => "None".toList
  | bool true => "True".toList
  | bool false => "False".toList
  | number n => n.write Number.plain
  | string units => Quoted.quote (Utf16.toText units)
  | array items => '[' :: (describeItems items ++ [']'])
  | object members => '\x7b' :: (describeMembers members ++ ['\x7d'])

def describeItems : List Json → Text
  | [] => []
  | [item] => describe item
  | item :: items => describe item ++ ',' :: ' ' :: describeItems items

def describeMembers : List (Utf16 × Json) → Text
  | [] => []
  | [(key, value)] => Quoted.quote (Utf16.toText key) ++ ':' :: ' ' :: describe value
  | (key, value) :: members =>
    Quoted.quote (Utf16.toText key) ++ ':' :: ' ' :: (describe value
      ++ ',' :: ' ' :: describeMembers members)

end

end NamespaceMerge.Json
