import Handoff.Proofs.Qr.Token
import Handoff.Startup

namespace Handoff

namespace Config

variable {source : Source} {name t : String} {fallback : Nat} {c : Config}

def Sets (source : Source) (name : String) : Prop :=
  ∃ s, source name = some s ∧ ∃ c ∈ s.toList, Text.isBlank c = false

def endpoints : List String := [
  "OAUTH_AUTHORIZE_URL", "OAUTH_TOKEN_URL", "OAUTH_USERINFO_URL", "OAUTH_CLIENT_ID",
  "OAUTH_REDIRECT_URI"]

theorem exists_text_iff : (∃ t, text source name = some t) ↔ Sets source name := by
  simp only [text, Option.bind_eq_some_iff, Sets, ← Text.exists_nonBlank_iff]
  exact ⟨fun ⟨t, s, hs, ht⟩ => ⟨s, hs, t, ht⟩, fun ⟨s, hs, t, ht⟩ => ⟨t, s, hs, ht⟩⟩

theorem tidy_of_text (h : text source name = some t) : Text.Tidy t := by
  obtain ⟨s, -, hs⟩ := Option.bind_eq_some_iff.1 h
  exact Text.tidy_of_nonBlank hs

theorem number_pos (hf : 0 < fallback) : 0 < number source name fallback := by
  unfold number
  cases h : ((text source name).bind fun s => Text.readWord s.toList).filter (0 < ·) with
  | none => exact hf
  | some n => exact of_decide_eq_true (Option.filter_eq_some_iff.1 h).2

theorem exists_sessionSecret_iff : (∃ t, (ofSource source).sessionSecret = some t) ↔
    Sets source "SESSION_SECRET" ∨ Sets source "JWT_SECRET" := by
  rw [← exists_text_iff, ← exists_text_iff, ofSource]
  cases text source "SESSION_SECRET" <;> simp

theorem exists_oauth_iff : (∃ o, oauthOf source = some o) ↔
    ∀ name ∈ endpoints, Sets source name := by
  simp only [endpoints, List.forall_mem_cons, ← exists_text_iff, oauthOf]
  cases text source "OAUTH_AUTHORIZE_URL" <;> cases text source "OAUTH_TOKEN_URL" <;>
    cases text source "OAUTH_USERINFO_URL" <;> cases text source "OAUTH_CLIENT_ID" <;>
    cases text source "OAUTH_REDIRECT_URI" <;> simp

theorem isOk_iff : c.validate.isOk = true ↔
    (∃ t, c.sessionSecret = some t) ∧ ∃ a, SocketAddress.parse c.addr = some a := by
  have hnote (b : Bool) (m : String) : note b m = [] ↔ b = false := by cases b <;> simp [note]
  rw [Validation.isOk, List.isEmpty_iff, validate, List.append_eq_nil_iff, hnote, hnote]
  simp [Option.isNone_eq_false_iff, Option.isSome_iff_exists]

end Config

namespace Service

variable {listens : SocketAddress → Bool} {provider : OAuthSettings → Provider} {now : Nat}
  {c : Config} {s : Service}

theorem exists_qrKeyOf (hk : ∀ k ∈ c.qrEncryptionKey, Text.Tidy k) :
    ∃ key, qrKeyOf c = .ok key ∧ key.isSome = c.qrEncryptionKey.isSome := by
  cases h : c.qrEncryptionKey with
  | none => exact ⟨none, by rw [qrKeyOf, h], rfl⟩
  | some k =>
    -- The key was trimmed when it was read, so it is not found blank now.
    have hfilled := Text.exists_nonBlank_iff.1 ⟨k, (hk k h).nonBlank⟩
    obtain ⟨key, hkey⟩ := Qr.Token.key_of_nonBlank hfilled
    refine ⟨some key, ?_, rfl⟩
    rw [qrKeyOf, h]
    dsimp only
    rw [hkey]

structure Follows (c : Config) (s : Service) : Prop where
  qrKey : s.setup.qrKey.isSome = c.qrEncryptionKey.isSome
  oauth : s.setup.oauth.isSome = c.oauth.isSome
  sessionTtl : s.setup.issuer.ttl = c.sessionTtl
  qrTtl : s.setup.qrTtl = c.qrTtl
  oauthTtl : s.setup.oauthTtl = c.oauthTtl
  limit : s.hub.limit = c.maxSubscribers

theorem ofConfig_of_secret (provider : OAuthSettings → Provider) (now : Nat)
    (hb : c.backend = .memory) {secret : String} (hs : c.sessionSecret = some secret)
    (hk : ∀ k ∈ c.qrEncryptionKey, Text.Tidy k) :
    ∃ s, ofConfig provider now c = .ok s ∧ s.Follows c := by
  obtain ⟨key, hkey, hsome⟩ := exists_qrKeyOf hk
  unfold ofConfig
  rw [hs, storageOf, hb, hkey]
  exact ⟨_, rfl, hsome, Option.isSome_map, rfl, rfl, rfl, rfl⟩

theorem ofConfig_of_no_secret (hs : c.sessionSecret = none) :
    ofConfig provider now c = .error .noSecret := by
  rw [ofConfig, hs]

theorem follows_of_ofConfig (hb : c.backend = .memory) (hk : ∀ k ∈ c.qrEncryptionKey, Text.Tidy k)
    (h : ofConfig provider now c = .ok s) :
    (∃ t, c.sessionSecret = some t) ∧ s.Follows c := by
  cases hs : c.sessionSecret with
  | none => cases (ofConfig_of_no_secret hs).symm.trans h
  | some secret =>
    obtain ⟨s', h', hf⟩ := ofConfig_of_secret provider now hb hs hk
    cases h'.symm.trans h
    exact ⟨⟨secret, rfl⟩, hf⟩

theorem ofConfig_ne_qrKey (hb : c.backend = .memory) (hk : ∀ k ∈ c.qrEncryptionKey, Text.Tidy k) :
    ofConfig provider now c ≠ .error .qrKey := by
  cases hs : c.sessionSecret with
  | none =>
    rw [ofConfig_of_no_secret hs]
    nofun
  | some secret =>
    obtain ⟨s, h, -⟩ := ofConfig_of_secret provider now hb hs hk
    rw [h]
    nofun

theorem serve_eq (hv : c.validate.isOk = true) (h : ofConfig provider now c = .ok s) :
    serve listens provider now c =
      if (SocketAddress.parse c.addr).any listens then .ok s
      else .error (.bind c.addr) := by
  rw [serve, hv, h]
  rfl

/-- What the settings promise of the start, at this time and with this provider. -/
structure Promised (provider : OAuthSettings → Provider) (now : Nat) (source : Config.Source)
    (c : Config) : Prop where
  reported : c.validate.isOk = true → ∃ s, ofConfig provider now c = .ok s
  served : c.validate.isOk = true → ∀ listens e, serve listens provider now c = .error e →
    e = .bind c.addr
  secret : (∃ s, ofConfig provider now c = .ok s) ↔
    Config.Sets source "SESSION_SECRET" ∨ Config.Sets source "JWT_SECRET"
  key : ofConfig provider now c ≠ .error .qrKey
  qr {s : Service} : ofConfig provider now c = .ok s →
    (s.setup.qrKey.isSome = true ↔ Config.Sets source "QR_ENCRYPTION_KEY")
  oauth {s : Service} : ofConfig provider now c = .ok s →
    (s.setup.oauth.isSome = true ↔ ∀ name ∈ Config.endpoints, Config.Sets source name)
  positive : 0 < c.sessionTtl ∧ 0 < c.qrTtl ∧ 0 < c.oauthTtl ∧ 0 < c.reaperInterval ∧
    0 < c.maxSubscribers
  kept {s : Service} : ofConfig provider now c = .ok s → s.setup.issuer.ttl = c.sessionTtl ∧
    s.setup.qrTtl = c.qrTtl ∧ s.setup.oauthTtl = c.oauthTtl ∧ s.hub.limit = c.maxSubscribers

/-- Whatever texts are set: with entries kept in memory, the report and the start agree. -/
theorem ofConfig_promised (provider : OAuthSettings → Provider) (now : Nat) (source : Config.Source)
    (hb : (Config.ofSource source).backend = .memory) :
    Promised provider now source (Config.ofSource source) := by
  have hkeys : ∀ k ∈ (Config.ofSource source).qrEncryptionKey, Text.Tidy k :=
    fun k hk => Config.tidy_of_text hk
  have hstart {secret : String} (hs : (Config.ofSource source).sessionSecret = some secret) :=
    ofConfig_of_secret provider now hb hs hkeys
  have hok {s : Service} (h : ofConfig provider now (Config.ofSource source) = .ok s) :=
    follows_of_ofConfig hb hkeys h
  constructor
  case reported =>
    intro hv
    obtain ⟨⟨secret, hs⟩, -⟩ := Config.isOk_iff.1 hv
    obtain ⟨s, h, -⟩ := hstart hs
    exact ⟨s, h⟩
  case served =>
    intro hv listens e he
    obtain ⟨⟨secret, hs⟩, -⟩ := Config.isOk_iff.1 hv
    obtain ⟨s, h, -⟩ := hstart hs
    rw [serve_eq hv h] at he
    split at he
    · cases he
    · exact (Except.error.inj he).symm
  case secret =>
    rw [← Config.exists_sessionSecret_iff]
    exact ⟨fun ⟨s, h⟩ => (hok h).1, fun ⟨t, ht⟩ => (hstart ht).imp fun _ => And.left⟩
  case key => exact ofConfig_ne_qrKey hb hkeys
  case qr =>
    intro s h
    rw [(hok h).2.qrKey, Option.isSome_iff_exists]
    exact Config.exists_text_iff
  case oauth =>
    intro s h
    rw [(hok h).2.oauth, Option.isSome_iff_exists]
    exact Config.exists_oauth_iff
  case positive =>
    exact ⟨Config.number_pos (by decide), Config.number_pos (by decide),
      Config.number_pos (by decide), Config.number_pos (by decide), Config.number_pos (by decide)⟩
  case kept =>
    intro s h
    have hf := (hok h).2
    exact ⟨hf.sessionTtl, hf.qrTtl, hf.oauthTtl, hf.limit⟩

section Example

def legacy : Config.Source := fun name =>
  if name = "JWT_SECRET" then some " legacy "
  else if name = "SESSION_SECRET" then some "\u2003"
  else if name = "QR_ENCRYPTION_KEY" then some "\t"
  else if name = "QR_TTL_MS" then some "00"
  else if name = "RDV_STORE_BACKEND" then some "SQLite"
  else none

theorem not_sets_legacy : ¬Config.Sets legacy "QR_ENCRYPTION_KEY" := by
  rintro ⟨_, ⟨⟩, c, hc, hb⟩
  rw [List.mem_singleton.1 hc] at hb
  cases hb

theorem ofConfig_promised_legacy :
    let provider : OAuthSettings → Provider := fun _ _ => .error (.profile (.client "away"))
    (Config.ofSource legacy).backend = .memory ∧
      ∃ s, ofConfig provider 0 (Config.ofSource legacy) = .ok s ∧
        s.setup.qrKey.isSome = false ∧ 0 < (Config.ofSource legacy).qrTtl := by
  intro provider
  have hb : (Config.ofSource legacy).backend = .memory := by decide
  have hp := ofConfig_promised provider 0 legacy hb
  obtain ⟨s, hs⟩ := hp.secret.2 (.inr ⟨" legacy ", rfl, 'l', by decide, by decide⟩)
  refine ⟨hb, s, hs, ?_, hp.positive.2.1⟩
  rw [Bool.eq_false_iff]
  exact fun h => not_sets_legacy ((hp.qr hs).1 h)

end Example

end Service

end Handoff
