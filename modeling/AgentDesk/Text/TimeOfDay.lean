import AgentDesk.Text.Numeral

/-! The time of day, in UTC, of an instant given in seconds since the epoch. -/
namespace AgentDesk.Text

/-- Hours, minutes and seconds, two digits each; instants before the epoch count backwards from midnight. -/
def timeOfDay (seconds : Int) : String :=
  let s := (seconds % 86400).toNat
  Numeral.two (s / 3600) ++ ":" ++ Numeral.two (s / 60 % 60) ++ ":" ++ Numeral.two (s % 60)

end AgentDesk.Text
