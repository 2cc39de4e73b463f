import TproxyServer.Bridge
import TproxyServer.Credentials
import TproxyServer.Dialogue
import TproxyServer.Http
import TproxyServer.Registry

/-! # The handlers of the server

`Server.serveHTTP` and everything it calls up to the manager, the sessions and the upgrade of a
connection, which are the calls of a dialogue: between two of them any number of other requests
may be served.  What the loops over an upgraded connection do is in `SocketReader` and
`SocketWriter`.

Left out are the deadlines of reading and writing, `New` and `AdminHandler`. -/

namespace TproxyServer

open Dialogue

/-! ### Calls -/

/-- The errors of a session that `errors.Is` tells apart, and the others. -/
inductive SessionError where
  | closed
  | concurrent
  | backpressure
  | protocol
  /-- The error of the context. -/
  | context
deriving DecidableEq, Repr

/-- What a handler asks for. -/
inductive ServerCall where
  | matchCapability (value : Bytes)
  | issueBootstrap (profile : Profile) (clientIP : String)
  | hasBootstrap (token : String)
  | create (token clientIP : String) (body : Bytes)
  | get (token : String)
  | closeToken (token : String)
  | carrierMode (session : ℕ)
  | processUp (session sequence : ℕ) (body : Bytes)
  | processUpLane (session laneID sequence : ℕ) (body : Bytes)
  | poll (session cursor : ℕ)
  | pollLane (session laneID cursor : ℕ)
  | acquireWebSocket (session : ℕ)
  | acquireWebSocketLane (session laneID : ℕ)
  | releaseWebSocketLane (session laneID : ℕ)
  | close (session : ℕ)
  /-- `Upgrade`: whether the connection is a WebSocket now. -/
  | upgrade (protocols : List String)
  /-- Whether the context of the request has ended. -/
  | contextErr
deriving DecidableEq

abbrev ServerCall.Answer : ServerCall → Type
  | matchCapability _ => Option Profile
  | issueBootstrap _ _ => Except ManagerError String
  | hasBootstrap _ => Bool
  | create _ _ _ => Except ManagerError Registry.CreateResult
  | get _ => Except ManagerError ℕ
  | closeToken _ => Except ManagerError Unit
  | carrierMode _ => CarrierMode
  | processUp _ _ _ | processUpLane _ _ _ _ => Except SessionError ℕ
  | poll _ _ => Except SessionError (Bytes × ℕ)
  | pollLane _ _ _ => Except SessionError (Bytes × ℕ × Bool)
  | acquireWebSocket _ | acquireWebSocketLane _ _ | upgrade _ | contextErr => Bool
  | releaseWebSocketLane _ _ | close _ => Unit

abbrev Handler := Dialogue ServerCall ServerCall.Answer

namespace Handler

abbrev matchCapability (value : Bytes) : Handler (Option Profile) :=
  call (ServerCall.matchCapability value)
abbrev issueBootstrap (profile : Profile) (ip : String) : Handler (Except ManagerError String) :=
  call (ServerCall.issueBootstrap profile ip)
abbrev hasBootstrap (token : String) : Handler Bool := call (ServerCall.hasBootstrap token)
abbrev create (token ip : String) (body : Bytes) :
    Handler (Except ManagerError Registry.CreateResult) := call (ServerCall.create token ip body)
abbrev get (token : String) : Handler (Except ManagerError ℕ) := call (ServerCall.get token)
abbrev closeToken (token : String) : Handler (Except ManagerError Unit) :=
  call (ServerCall.closeToken token)
abbrev carrierMode (session : ℕ) : Handler CarrierMode := call (ServerCall.carrierMode session)
abbrev processUp (session sequence : ℕ) (body : Bytes) : Handler (Except SessionError ℕ) :=
  call (ServerCall.processUp session sequence body)
abbrev processUpLane (session laneID sequence : ℕ) (body : Bytes) :
    Handler (Except SessionError ℕ) := call (ServerCall.processUpLane session laneID sequence body)
abbrev poll (session cursor : ℕ) : Handler (Except SessionError (Bytes × ℕ)) :=
  call (ServerCall.poll session cursor)
abbrev pollLane (session laneID cursor : ℕ) : Handler (Except SessionError (Bytes × ℕ × Bool)) :=
  call (ServerCall.pollLane session laneID cursor)
abbrev acquireWebSocket (session : ℕ) : Handler Bool := call (ServerCall.acquireWebSocket session)
abbrev acquireWebSocketLane (session laneID : ℕ) : Handler Bool :=
  call (ServerCall.acquireWebSocketLane session laneID)
abbrev releaseWebSocketLane (session laneID : ℕ) : Handler Unit :=
  call (ServerCall.releaseWebSocketLane session laneID)
abbrev close (session : ℕ) : Handler Unit := call (ServerCall.close session)
abbrev upgrade (protocols : List String) : Handler Bool := call (ServerCall.upgrade protocols)
abbrev contextErr : Handler Bool := call ServerCall.contextErr

end Handler

/-- How a request ends. -/
inductive Outcome where
  | response (r : Response)
  /-- The request, perhaps rewritten, is handed to the public application. -/
  | forwarded (r : Request)
  /-- The handler returns without an answer, its client being gone. -/
  | silence
  /-- The connection is a WebSocket, or could not become one. -/
  | socket (upgraded : Bool)

/-! ### The server -/

/-- What is served to the public: files, or whatever the upstream answers. -/
inductive Content where
  | site (site : StaticSite)
  | upstream

structure Server where
  config : Config
  publicHostname : String
  content : Content
  lib : Library

/-- `isTransportPath`. -/
def isTransportPath (path : String) : Bool :=
  path = "/api/v1/session" || path = "/api/v1/up" || path = "/api/v1/down" || path = "/api/v1/ws"

/-- The headers that `sanitizedPublicFallback` deletes. -/
def transportHeaders : List String :=
  ["Authorization", "Content-Length", "Content-Type", "Sec-WebSocket-Key",
    "Sec-WebSocket-Protocol", "Sec-WebSocket-Version", "Upgrade", "X-Down-Cursor", "X-Lane-ID",
    "X-Up-Seq"]

/-- `sanitizedPublicFallback`. -/
def sanitizedPublicFallback (r : Request) : Request :=
  { r with
    header := (transportHeaders.foldl Header.del r.header).set "Connection" "close"
    body := []
    bodyBroken := false
    contentLength := 0 }

def noStore : ResponseHeader := [("Cache-Control", "no-store")]

/-- "503 Service Unavailable", to be tried again. -/
def tryAgain : Response := { status := 503, header := noStore ++ [("Retry-After", "1")] }

namespace Server

variable (sv : Server) (r : Request)

/-! ### The public side -/

def serveNotFound : Outcome :=
  match sv.content with
  | .upstream => .forwarded (if isTransportPath r.path then sanitizedPublicFallback r else r)
  | .site site => .response (serveEntry sv.lib site r site.notFound 404)

def serveStatic : Outcome :=
  match sv.content with
  | .upstream => .forwarded r
  | .site site =>
      match site.resolve sv.lib r.path with
      | some entry => .response (serveEntry sv.lib site r entry 200)
      | none => sv.serveNotFound r

def servePublicRoot : Outcome :=
  match sv.content with
  | .upstream => .forwarded r
  | .site site => .response (serveEntry sv.lib site r site.index 200)

def servePublicRootWithoutCapability : Outcome :=
  match sv.content with
  | .upstream => .forwarded { r with rawQuery := "" }
  | .site site => .response (serveEntry sv.lib site r site.index 200)

def serveWrongHost : Outcome :=
  match sv.content with
  | .site site => .response (serveEntry sv.lib site r site.notFound 404)
  | .upstream => .response
      { status := 404
        header := [("Content-Type", "text/plain; charset=utf-8"),
          ("X-Content-Type-Options", "nosniff")]
        body := "404 page not found\n".toUTF8.toList }

/-! ### The bridge page -/

def bridgeProfile : Handler (Option Profile) := do
  let candidate := bridgeCandidate r.rawQuery
  let profile ← Handler.matchCapability (candidate.getD zeroDigest)
  pure (if candidate.isSome then profile else none)

/-- `bridge.PermissionsPolicy`. -/
def permissionsPolicy : String :=
  "accelerometer=(), autoplay=(), camera=(), clipboard-read=(), clipboard-write=(), " ++
    "display-capture=(), encrypted-media=(), fullscreen=(), geolocation=(), gyroscope=(), " ++
    "hid=(), idle-detection=(), magnetometer=(), microphone=(), midi=(), payment=(), " ++
    "picture-in-picture=(), publickey-credentials-create=(), publickey-credentials-get=(), " ++
    "screen-wake-lock=(), serial=(), usb=(), web-share=(), xr-spatial-tracking=()"

/-- The answer that carries the page. -/
def pageResponse (page : Page) : Response where
  status := 200
  header :=
    [("Content-Type", "text/html; charset=utf-8"),
      ("Content-Security-Policy", page.csp),
      ("Cache-Control", "no-store"),
      ("Referrer-Policy", "no-referrer"),
      ("X-Content-Type-Options", "nosniff"),
      ("X-DNS-Prefetch-Control", "off"),
      ("Permissions-Policy", permissionsPolicy),
      ("Content-Length", toString page.body.length)]
  body := page.body

def serveRoot : Handler Outcome := do
  match ← bridgeProfile r with
  | none => pure (sv.servePublicRoot r)
  | some profile =>
      if r.method ≠ "GET" then pure (sv.servePublicRoot r)
      else match clientIP sv.lib r with
        | none => pure (sv.servePublicRootWithoutCapability r)
        | some ip =>
            match ← Handler.issueBootstrap profile ip with
            | .error _ => pure (sv.servePublicRootWithoutCapability r)
            | .ok token =>
                match sv.lib.render sv.publicHostname token profile.carrierMode.text
                    sv.config.limits.carrierBatchBytes with
                | none => pure (sv.servePublicRootWithoutCapability r)
                | some page => pure (.response (pageResponse page))

/-! ### Sessions -/

/-- The answer to the first `Create` and to its retries. -/
def createdResponse (result : Registry.CreateResult) (mode : CarrierMode) : Response where
  status := 200
  header :=
    [("Content-Type", "application/octet-stream"),
      ("Cache-Control", "no-store"),
      ("X-Session-Token", result.token),
      ("X-Carrier-Mode", mode.text),
      ("X-Down-Cursor", "0"),
      ("Content-Length", toString result.welcome.length)]
  body := result.welcome

def maxCreateBodyBytes : ℕ := 64

def serveSession (token ip : String) : Handler Outcome :=
  if r.method = "DELETE" then do
    match ← Handler.closeToken token with
    | .error _ => pure (sv.serveNotFound r)
    | .ok _ =>
        if emptyBody r = false ∨ r.header.get "Content-Type" ≠ "" then pure (sv.serveNotFound r)
        else pure (.response { status := 204, header := noStore })
  else if r.method ≠ "POST" ∨
      binaryContentType sv.lib (r.header.get "Content-Type") = false then
    pure (sv.serveNotFound r)
  else do
    match ← Handler.hasBootstrap token with
    | false => pure (sv.serveNotFound r)
    | true =>
        match readBody r maxCreateBodyBytes with
        | none => pure (sv.serveNotFound r)
        | some body =>
            match ← Handler.create token ip body with
            | .error .limit => pure (.response tryAgain)
            | .error _ => pure (sv.serveNotFound r)
            | .ok result => do
                let mode ← Handler.carrierMode result.session
                pure (.response (createdResponse result mode))

/-! ### The uplink -/

/-- The lane that a request names. -/
def laneOf : Option ℕ :=
  (canonicalUint (r.header.get "X-Lane-ID")).filter fun lane => lane ≤ maxStreamID

/-- The answer to what `ProcessUp` or `ProcessUpLane` returned. -/
def upOutcome : Except SessionError ℕ → Outcome
  | .error .backpressure | .error .concurrent => .response tryAgain
  | .error _ => sv.serveNotFound r
  | .ok ack => .response { status := 204, header := noStore ++ [("X-Up-Ack", toString ack)] }

def serveUp (token : String) : Handler Outcome :=
  if r.method ≠ "POST" ∨ binaryContentType sv.lib (r.header.get "Content-Type") = false then
    pure (sv.serveNotFound r)
  else match (canonicalUint (r.header.get "X-Up-Seq")).filter (· ≠ 0) with
    | none => pure (sv.serveNotFound r)
    | some sequence => do
        match ← Handler.get token with
        | .error _ => pure (sv.serveNotFound r)
        | .ok value =>
            match readBody r sv.config.limits.maxBodyBytes.toNatClampNeg with
            | none => pure (sv.serveNotFound r)
            | some body =>
                match ← Handler.carrierMode value with
                | .https =>
                    if r.header.get "X-Lane-ID" ≠ "" then pure (sv.serveNotFound r)
                    else do
                      let result ← Handler.processUp value sequence body
                      pure (sv.upOutcome r result)
                | .httpsLanes =>
                    match laneOf r with
                    | none => pure (sv.serveNotFound r)
                    | some lane => do
                        let result ← Handler.processUpLane value lane sequence body
                        pure (sv.upOutcome r result)
                | _ => pure (sv.serveNotFound r)

/-! ### The downlink -/

/-- The answer to a poll that did not fail. -/
def downResponse (body : Bytes) (next : ℕ) (laneClosed : Bool) : Response :=
  let header := noStore ++ [("X-Down-Cursor", toString next)] ++
    (if laneClosed then [("X-Lane-Closed", "1")] else [])
  if body = [] then { status := 204, header }
  else
    { status := 200
      header := header ++ [("Content-Type", "application/octet-stream"),
        ("Content-Length", toString body.length)]
      body }

/-- The answer to what `Poll` or `PollLane` returned. -/
def downOutcome : Except SessionError (Bytes × ℕ × Bool) → Handler Outcome
  | .error err => do
      match ← Handler.contextErr with
      | true => pure .silence
      | false =>
          pure (if err = .concurrent then .response tryAgain else sv.serveNotFound r)
  | .ok (body, next, laneClosed) => pure (.response (downResponse body next laneClosed))

def serveDown (token : String) : Handler Outcome :=
  if r.method ≠ "POST" ∨ r.header.get "Content-Type" ≠ "" then pure (sv.serveNotFound r)
  else match canonicalUint (r.header.get "X-Down-Cursor") with
    | none => pure (sv.serveNotFound r)
    | some cursor => do
        match ← Handler.get token with
        | .error _ => pure (sv.serveNotFound r)
        | .ok value =>
            if emptyBody r = false then pure (sv.serveNotFound r)
            else do
              match ← Handler.carrierMode value with
              | .https =>
                  if r.header.get "X-Lane-ID" ≠ "" then pure (sv.serveNotFound r)
                  else do
                    let result ← Handler.poll value cursor
                    sv.downOutcome r (result.map fun p => (p.1, p.2, false))
              | .httpsLanes =>
                  match laneOf r with
                  | none => pure (sv.serveNotFound r)
                  | some lane => do
                      let result ← Handler.pollLane value lane cursor
                      sv.downOutcome r result
              | _ => pure (sv.serveNotFound r)

/-! ### WebSockets -/

/-- Close what the connection acquired. -/
def releaseSocket (value : ℕ) : Option ℕ → Handler Unit
  | some laneID => Handler.releaseWebSocketLane value laneID
  | none => Handler.close value

/-- `serveWebSocket` up to the two loops. -/
def serveWebSocket : Handler Outcome :=
  if r.method ≠ "GET" ∨ r.header.get "Authorization" ≠ "" then pure (sv.serveNotFound r)
  else match sv.lib.subprotocols r.header with
    | [protocol] =>
        match webSocketCredentials protocol with
        | none => pure (sv.serveNotFound r)
        | some (token, lane) =>
            if bearerToken ("Bearer " ++ token) = none then pure (sv.serveNotFound r)
            else do
              match ← Handler.get token with
              | .error _ => pure (sv.serveNotFound r)
              | .ok value =>
                  let mode ← Handler.carrierMode value
                  if mode ≠ (if lane.isSome then .webSocketLanes else .webSocket) then
                    pure (sv.serveNotFound r)
                  else if emptyBody r = false then pure (sv.serveNotFound r)
                  else
                    let acquired ← match lane with
                      | some laneID => Handler.acquireWebSocketLane value laneID
                      | none => Handler.acquireWebSocket value
                    if acquired = false then pure (sv.serveNotFound r)
                    else
                      match ← Handler.upgrade [protocol] with
                      | true => pure (.socket true)
                      | false => do
                          releaseSocket value lane
                          pure (.socket false)
    | _ => pure (sv.serveNotFound r)

/-! ### Routing -/

def serveAPI : Handler Outcome :=
  if r.rawQuery ≠ "" ∨ (r.header.get "Cookie" ≠ "" ∧ r.path ≠ "/api/v1/ws") then
    pure (sv.serveNotFound r)
  else match clientIP sv.lib r with
    | none => pure (sv.serveNotFound r)
    | some ip =>
        if r.path = "/api/v1/ws" then sv.serveWebSocket r
        else match bearerToken (r.header.get "Authorization") with
          | none => pure (sv.serveNotFound r)
          | some token =>
              if r.path = "/api/v1/session" then sv.serveSession r token ip
              else if r.path = "/api/v1/up" then sv.serveUp r token
              else if r.path = "/api/v1/down" then sv.serveDown r token
              else pure (sv.serveNotFound r)

/-- The request names the configured host. -/
def rightHost : Prop :=
  r.host = sv.publicHostname ∨ r.host = sv.publicHostname ++ ":443"

instance : Decidable (sv.rightHost r) := inferInstanceAs (Decidable (_ ∨ _))

def serveHTTP : Handler Outcome :=
  if ¬ sv.rightHost r then pure (sv.serveWrongHost r)
  else if isTransportPath r.path then sv.serveAPI r
  else if r.path = "/" ∧ (r.method = "GET" ∨ r.method = "HEAD") then sv.serveRoot r
  else if r.method ≠ "GET" ∧ r.method ≠ "HEAD" then pure (sv.serveNotFound r)
  else pure (sv.serveStatic r)

end Server

end TproxyServer
