import Coordination.Settings.Table

/-! # Settings as JSON -/
namespace Coordination.Settings
open Json

def Entry.slotOf {α : Type} (e : Entry) (k : Kind α) (put : Settings → α → Settings) : Slot Settings :=
  if e.isRequired then .required e.name k put else .defaulted e.name k put

def Entry.slot (e : Entry) : Slot Settings :=
  match e.content with
  | .text _ put => e.slotOf .text put
  | .list _ put => e.slotOf (.list .text) put
  | .number word _ put => e.slotOf (.natural word.bits word.name) put

def shape : Shape Settings where
  title := "struct Config"
  start := standard ""
  slots := table.map Entry.slot

def Entry.toJson (e : Entry) (s : Settings) : Value :=
  match e.content with
  | .text get _ => .text (get s)
  | .list get _ => .list ((get s).map .text)
  | .number _ get _ => .integer (get s)

def toJson (s : Settings) : Value := .object (table.map fun e => (e.name, e.toJson s))

end Coordination.Settings
