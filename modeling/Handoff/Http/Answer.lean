import Handoff.Http.Message
import Handoff.OAuth.Calls
import Handoff.Qr.Calls

namespace Handoff.Http

structure Failure where
  status : Nat
  code : String
  message : String
  suggestion : String
  deriving DecidableEq, Repr

namespace Failure

def response (f : Failure) : Response :=
  .json f.status <| .obj [("ok", .bool false), ("code", .str f.code), ("message", .str f.message),
    ("suggestion", .str f.suggestion)]

def internal (code : String) : Failure := ⟨500, code, "服务暂时不可用", "请稍后重试"⟩

def missingToken : Failure := ⟨400, "MISSING_TOKEN", "缺少 token", "请重新扫码或刷新页面"⟩

def qrNotConfigured : Failure := ⟨503, "QR_NOT_CONFIGURED", "扫码登录未启用", "请联系管理员配置加密密钥"⟩

def tokenNotFound : Failure := ⟨404, "TOKEN_NOT_FOUND", "二维码不存在或已过期", "请刷新二维码"⟩

def invalidSession : Failure := ⟨400, "INVALID_SESSION", "会话令牌无效", "请重新扫码登录"⟩

def ofGenerate : Qr.Error → Failure
  | .notConfigured => qrNotConfigured
  | _ => internal "QR_TOKEN_GENERATE_FAILED"

def ofScan : Qr.Error → Failure
  | .invalidToken | .notFound | .conflict _ =>
    ⟨400, "QR_CODE_INVALID", "二维码无效或已过期", "请在电脑上刷新二维码后重新扫描"⟩
  | .notConfigured => qrNotConfigured
  | _ => internal "QR_SCAN_FAILED"

def ofConfirm : Qr.Error → Failure
  | .unauthorized .missing => ⟨401, "NOT_LOGGED_IN", "请先登录", "在手机上登录后再确认"⟩
  | .unauthorized .invalid => ⟨401, "INVALID_SESSION", "登录状态已失效", "请在手机上重新登录"⟩
  | .invalidToken | .notFound => tokenNotFound
  | .conflict _ => ⟨409, "TOKEN_ALREADY_USED", "二维码已被使用", "请在电脑上刷新二维码"⟩
  | .notConfigured => qrNotConfigured
  | .sessionMint _ => internal "SESSION_CREATE_FAILED"
  | .busy | .internal _ => internal "INTERNAL_ERROR"

def ofWatch : Qr.Error → Failure
  | .invalidToken | .notFound | .conflict _ => tokenNotFound
  | .notConfigured => qrNotConfigured
  | .busy => ⟨503, "TOO_MANY_WAITERS", "等待连接过多", "请稍后刷新页面"⟩
  | _ => internal "INTERNAL_ERROR"

def userNotFound : Failure := ⟨404, "USER_NOT_FOUND", "用户不存在", "请重新登录"⟩

def alreadyLinked : Failure :=
  ⟨409, "ALREADY_LINKED", "该第三方账号已绑定其他用户", "请使用已绑定的账号登录"⟩

def ofOAuth : OAuth.Error → Failure
  | .notConfigured => ⟨503, "OAUTH_NOT_CONFIGURED", "第三方登录未配置", "请联系管理员配置身份提供方"⟩
  | .invalidAction => ⟨400, "INVALID_ACTION", "不支持的操作类型", "action 仅支持 login 或 link"⟩
  | .unauthorized .missing => ⟨401, "NOT_LOGGED_IN", "请先登录", "登录后再绑定第三方账号"⟩
  | .unauthorized .invalid => ⟨401, "INVALID_SESSION", "登录状态已失效", "请重新登录"⟩
  | .stateInvalid => ⟨400, "OAUTH_STATE_INVALID", "授权请求无效或已过期", "请重新发起授权"⟩
  | .denied _ => ⟨400, "OAUTH_DENIED", "授权被拒绝", "如需继续请重新授权"⟩
  | .provider _ => ⟨502, "OAUTH_PROVIDER_FAILED", "身份提供方暂时不可用", "请稍后重试"⟩
  | .alreadyLinked => alreadyLinked
  | .noLinkedAccount => ⟨404, "NO_LINKED_ACCOUNT", "未找到关联账号", "请先登录已有账号后再绑定"⟩
  | .userNotFound => userNotFound
  | .sessionMint _ => internal "SESSION_CREATE_FAILED"
  | .internal _ => internal "INTERNAL_ERROR"

def ofLink : OAuth.LinkError → Failure
  | .invalid => ⟨400, "INVALID_TOKEN", "绑定链接无效或已过期", "请重新使用第三方账号登录"⟩
  | .userNotFound => userNotFound
  | .alreadyLinked => alreadyLinked
  | .sessionMint _ => internal "SESSION_CREATE_FAILED"
  | .internal _ => internal "LINK_FAILED"

end Failure

def success (message suggestion : String) (data : Option Json) : Response :=
  .json 200 <| .obj <| [("ok", .bool true), ("code", .str "OK"), ("message", .str message),
    ("suggestion", .str suggestion)] ++ data.toList.map fun d => ("data", d)

def reply {α E : Type} (message : String) (data : α → Json) (failure : E → Failure) :
    Except E α → Response
  | .ok a => success message "" (some (data a))
  | .error e => (failure e).response

def withCookie (cookie : Option String) (r : Response) : Response :=
  cookie.elim r fun c => r.withHeader "set-cookie" c

def optMember (name : String) (value : Option Json) : List (String × Json) :=
  value.toList.map fun v => (name, v)

def issuedData (i : Qr.Issued) : Json :=
  .obj [("token", .str i.token), ("expireTime", .nat i.expireAt)]

def scannedData (x : Qr.Scanned) : Json :=
  .obj [("desktopInfo", x.desktop.toJson), ("expireTime", .nat x.expireAt)]

def snapshotData (x : Qr.Snapshot) : Json :=
  .obj <| [("status", .str x.status.text), ("expireTime", .nat x.expireAt)] ++
    optMember "scannedAt" (x.scannedAt.map .nat)

/-- Nothing new before the time ran out is told as `waiting`. -/
def waitData : Option Qr.Message → Json
  | some m => .obj <| ("status", .str m.status.text) ::
      optMember "sessionToken" (m.sessionToken.map .str)
  | none => .obj [("status", .str "waiting")]

def begunData (b : OAuth.Begun) : Json :=
  .obj [("state", .str b.state), ("authorizeUrl", .str b.authorizeUrl),
    ("expireTime", .nat b.expireAt)]

def outcomeData : OAuth.Outcome → Json
  | .linked uid => .obj [("outcome", .str "linked"), ("userId", .int uid.toInt)]
  | .loggedIn uid session =>
    .obj [("outcome", .str "loggedIn"), ("userId", .int uid.toInt), ("sessionToken", .str session)]
  | .pendingLink token expireAt =>
    .obj [("outcome", .str "pendingLink"), ("linkToken", .str token), ("expireTime", .nat expireAt)]

def linkData (v : OAuth.LinkView) : Json :=
  .obj <| ("displayName", .str v.identity.displayName) ::
    optMember "avatarUrl" (v.identity.avatarUrl.map .str) ++
    optMember "email" (v.identity.email.map .str) ++
    [("username", .str v.username)] ++ optMember "userAvatarUrl" (v.avatarUrl.map .str) ++
    [("expireTime", .nat v.expireAt)]

def linkedData (l : OAuth.Linked) : Json :=
  .obj [("userId", .int l.uid.toInt), ("sessionToken", .str l.session)]

def statsData (serverTime : String) (s : Service) : Json :=
  .obj [("qrConfigured", .bool s.setup.qrKey.isSome),
    ("oauthConfigured", .bool s.setup.oauth.isSome),
    ("qrSessions", .nat (s.count Qr.Session)), ("oauthStates", .nat (s.count OAuth.State)),
    ("pendingLinks", .nat (s.count OAuth.PendingLink)),
    ("notifyTopics", .nat s.hub.topics.length), ("notifySubscribers", .nat s.hub.active),
    ("serverTime", .str serverTime)]

end Handoff.Http
