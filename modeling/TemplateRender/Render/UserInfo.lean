import TemplateRender.Value.Basic

/-!
Data that the caller hands to every tag of a render. The render itself never reads it. An entry
is read with the type that it is expected to have, and an entry of another type is as good as
absent.
-/
namespace TemplateRender

inductive InfoItem where
  | text (s : String)
  | number (n : Int64)
  | flag (b : Bool)
deriving DecidableEq, Repr

inductive InfoKind where
  | text
  | number
  | flag
deriving DecidableEq, Repr

namespace InfoItem

def kind : InfoItem → InfoKind
  | text _ => .text
  | number _ => .number
  | flag _ => .flag

def value : InfoItem → Value
  | text s => .str s
  | number n => .int n
  | flag b => .bool b

end InfoItem

structure UserInfo where
  entries : Entries InfoItem := []

namespace UserInfo

def insert (info : UserInfo) (key : String) (item : InfoItem) : UserInfo :=
  ⟨Entries.insert key item info.entries⟩

def ofList (pairs : List (String × InfoItem)) : UserInfo := ⟨Entries.ofList pairs⟩

def get? (info : UserInfo) (key : String) (kind : InfoKind) : Option InfoItem :=
  (Entries.get? info.entries key).filter fun item => item.kind == kind

def contains (info : UserInfo) (key : String) : Bool := Entries.contains info.entries key

def size (info : UserInfo) : Nat := info.entries.length

end UserInfo

end TemplateRender
