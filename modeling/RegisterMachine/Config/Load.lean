import RegisterMachine.Config.Basic
import RegisterMachine.Screen.Basic
import RegisterMachine.Text.Lines
import RegisterMachine.Toml.Document

set_option autoImplicit false

/-! # Configuration files

A configuration is read from the `machine` table of a document. A document without that table gives
the default configuration. -/

namespace RegisterMachine.Configuration

/-- The configuration that a document spells. -/
def ofDocument (source : String) : Except Failure Configuration := do
  let root ← Toml.parse source
  match root.lookup "machine" with
  | none => .ok {}
  | some (.table entries) => match ({} : Configuration).update entries with
    | (c, none) => .ok c
    | (_, some failure) => .error failure
  | some _ => .error .notATable

/-- The configuration that a file's bytes spell. -/
def ofBytes (bytes : ByteArray) : Except Failure Configuration :=
  match Text.decode? bytes with
  | some source => ofDocument source
  | none => .error .malformedEncoding

/-- A new screen of the configured size and refresh interval. -/
def screen (c : Configuration) : Except Failure Screen :=
  Screen.create c.screenWidth c.screenHeight c.refreshMs

end RegisterMachine.Configuration
