import Handoff.Cli
import Handoff.Startup

namespace Handoff.Cli

def readSettings : IO (List (String × String)) :=
  Config.names.filterMapM fun name => do return (← IO.getEnv name).map (name, ·)

/-- A provider for a machine on which no transport is set up. -/
def unreachable (_ : OAuthSettings) : Provider :=
  fun _ => .error (.tokenExchange (.client "no transport"))

def start (source : Config.Source) : Outcome :=
  match Service.serve (fun _ => true) unreachable 0 (Config.ofSource source) with
  | .ok _ => ⟨0, ["ready"], []⟩
  | .error e => ⟨1, [], ["Error: " ++ e.message]⟩

end Handoff.Cli

def main (args : List String) : IO UInt32 := do
  let settings ← Handoff.Cli.readSettings
  let random ← IO.getRandomBytes (USize.ofNat Handoff.Cli.keyBytes)
  let source : Handoff.Config.Source := fun name => settings.lookup name
  let outcome := (Handoff.Cli.dispatch source random.toList args).getD (Handoff.Cli.start source)
  for line in outcome.stdout do IO.println line
  for line in outcome.stderr do IO.eprintln line
  return outcome.exit.toUInt32
