import Handoff.Qr.Message
import Handoff.Text.Split

namespace Handoff.Qr.Agent

structure Rule where
  any : List String
  except : List String
  label : String

def Rule.fits (r : Rule) (agent : String) : Bool :=
  r.any.any (Text.contains · agent) && !r.except.any (Text.contains · agent)

def unknown : String := "Unknown"

def browsers : List Rule := [
  ⟨["Edg/"], [], "Edge"⟩,
  ⟨["OPR/", "Opera"], [], "Opera"⟩,
  ⟨["Chrome/"], [], "Chrome"⟩,
  ⟨["Firefox/"], [], "Firefox"⟩,
  ⟨["Safari/"], ["Chrome"], "Safari"⟩,
  ⟨["MSIE", "Trident/"], [], "Internet Explorer"⟩]

def systems : List Rule := [
  ⟨["Windows NT 10.0"], [], "Windows 10/11"⟩,
  ⟨["Windows NT 6.3"], [], "Windows 8.1"⟩,
  ⟨["Windows NT 6.2"], [], "Windows 8"⟩,
  ⟨["Windows NT 6.1"], [], "Windows 7"⟩,
  ⟨["Windows NT 6.0"], [], "Windows Vista"⟩,
  ⟨["Windows NT 5.1"], [], "Windows XP"⟩,
  ⟨["Windows NT 5.0"], [], "Windows 2000"⟩,
  ⟨["Windows"], [], "Windows"⟩,
  ⟨["iPhone"], [], "iOS"⟩,
  ⟨["iPad"], [], "iPadOS"⟩,
  ⟨["Mac"], [], "macOS"⟩,
  ⟨["HarmonyOS"], [], "HarmonyOS"⟩,
  ⟨["Android"], [], "Android"⟩,
  ⟨["CrOS"], [], "Chrome OS"⟩,
  ⟨["FreeBSD"], [], "FreeBSD"⟩,
  ⟨["X11"], [], "UNIX"⟩,
  ⟨["Linux"], [], "Linux"⟩]

def label (rules : List Rule) (agent : String) : String :=
  ((rules.find? (·.fits agent)).map (·.label)).getD unknown

/-- The desktop at this address with this user agent. A blank agent tells nothing. -/
def describe (ip agent : String) : Desktop :=
  let agent := Text.trim agent
  if agent.isEmpty then ⟨ip, unknown, unknown⟩
  else ⟨ip, label browsers agent, label systems agent⟩

end Handoff.Qr.Agent
