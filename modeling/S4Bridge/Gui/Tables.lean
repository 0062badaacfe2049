import S4Bridge.Gui.App

/-!
# The tables of the tester (`midi_dev_tester.py`)

The log and the counters beside each other: `tablePump` is the application's pump with the button that
clears the log.
-/

namespace Gui

/-- `_clear_log`: every item is deleted. -/
def App.clearLog (app : App) : App := { app with logTree := [] }

inductive TableCall
  | button (call : Call)
  | clearLog
  deriving DecidableEq, Repr

def tablePump (pyInt : PyInt) : Pump.EventPump App Item PyError TableCall where
  handle := App.handleEvent
  call app
    | .button call => (app.call pyInt call).state
    | .clearLog => app.clearLog
  batch := 200

end Gui
