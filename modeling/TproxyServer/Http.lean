import TproxyServer.Frames

/-! # Requests and responses

What the handlers read of an `http.Request` and write to an `http.ResponseWriter`.  A Go string
is a sequence of bytes; a `String` here has one character for each of them.

`Library` holds the functions of the standard library, of the WebSocket package and of
`bridge.Render` that the handlers call and whose answers nothing here depends on. -/

namespace TproxyServer

/-! ### Headers -/

/-- `textproto.CanonicalMIMEHeaderKey`: upper case at the start and after a hyphen. -/
def canonicalKey (name : String) : String :=
  String.ofList ((name.toList.foldl (fun acc c =>
    (acc.1 ++ [if acc.2 then c.toUpper else c.toLower], c == '-')) ([], true)).1)

/-- `http.Header` of a request: the values under each canonical name. -/
abbrev Header := String → List String

namespace Header

def get (h : Header) (name : String) : String := (h (canonicalKey name)).headD ""

def del (h : Header) (name : String) : Header :=
  fun key => if key = canonicalKey name then [] else h key

def set (h : Header) (name value : String) : Header :=
  fun key => if key = canonicalKey name then [value] else h key

/-- The header with these values. -/
def ofList (fields : List (String × String)) : Header :=
  fields.foldl (fun h f => h.set f.1 f.2) fun _ => []

end Header

/-! ### Requests -/

structure Request where
  method : String
  host : String
  /-- `URL.Path`. -/
  path : String
  /-- `URL.RawQuery`. -/
  rawQuery : String := ""
  header : Header := fun _ => []
  remoteAddr : String
  contentLength : ℤ := 0
  /-- What can be read of the body. -/
  body : Bytes := []
  /-- Reading on ends in an error. -/
  bodyBroken : Bool := false

def readBody (r : Request) (limit : ℕ) : Option Bytes :=
  if r.bodyBroken ∨ limit < r.body.length ∨ r.body = [] then none else some r.body

def emptyBody (r : Request) : Bool := r.contentLength ≤ 0 && r.body = []

/-! ### Responses -/

/-- The header of a response, in the order in which it is set. -/
abbrev ResponseHeader := List (String × String)

structure Response where
  status : ℕ
  header : ResponseHeader
  body : Bytes := []
deriving DecidableEq, Repr

/-- `bridge.Page`: a page with its policy. -/
structure Page where
  csp : String
  body : Bytes

/-- The functions that the handlers call. -/
structure Library where
  /-- The host that `net.SplitHostPort` finds. -/
  splitHostPort : String → Option String
  /-- `net.ParseIP`, with what `String` and `IsLoopback` say of the address. -/
  parseIP : String → Option (String × Bool)
  /-- `strings.TrimSpace`. -/
  trimSpace : String → String
  /-- `mime.ParseMediaType`: the type and its parameters. -/
  parseMediaType : String → Option (String × List (String × String))
  /-- `http.ParseTime`, in nanoseconds. -/
  parseTime : String → Option ℤ
  /-- `Format` with `http.TimeFormat`. -/
  formatTime : ℤ → String
  /-- `path.Clean`. -/
  clean : String → String
  /-- `filepath.Ext`. -/
  ext : String → String
  /-- `websocket.Subprotocols`. -/
  subprotocols : Header → List String
  /-- `bridge.Render`: the host, the token, the carrier mode and `carrier_batch_bytes`. -/
  render : String → String → String → Int64 → Option Page

def binaryContentType (lib : Library) (value : String) : Bool :=
  match lib.parseMediaType value with
  | none => false
  | some (mediaType, parameters) =>
      mediaType = "application/octet-stream" && parameters.isEmpty

/-- `clientIP`; `none` is an error. -/
def clientIP (lib : Library) (r : Request) : Option String :=
  match (lib.splitHostPort r.remoteAddr).bind lib.parseIP with
  | none => none
  | some (peer, loopback) =>
      if loopback = false then none
      else
        let forwarded := r.header.get "X-Forwarded-For"
        if forwarded = "" then some peer
        else if forwarded.toList.contains ',' ∨ lib.trimSpace forwarded ≠ forwarded then none
        else (lib.parseIP forwarded).map Prod.fst

/-! ### The public site -/

structure StaticEntry where
  body : Bytes
  contentType : String

/-- `staticSite`, as `loadStaticSite` leaves it: there is an index, and what is served where
nothing is found is `/404.html` or else the index. -/
structure StaticSite where
  entries : List (String × StaticEntry)
  /-- In nanoseconds. -/
  modTime : ℤ
  hasIndex : (entries.lookup "/index.html").isSome

namespace StaticSite

def index (site : StaticSite) : StaticEntry :=
  (site.entries.lookup "/index.html").get site.hasIndex

def notFound (site : StaticSite) : StaticEntry :=
  (site.entries.lookup "/404.html").getD site.index

def resolve (lib : Library) (site : StaticSite) (requestPath : String) : Option StaticEntry :=
  if requestPath.toList.head? ≠ some '/' then none
  else if lib.clean requestPath ≠ requestPath ∨ requestPath.toList.contains '\\' then none
  else match site.entries.lookup requestPath with
    | some entry => some entry
    | none =>
        if requestPath = "/favicon.ico" then site.entries.lookup "/favicon.svg"
        else if lib.ext requestPath = "" then site.entries.lookup (requestPath ++ ".html")
        else none

end StaticSite

def cacheControl (r : Request) (status : ℕ) : String :=
  if 400 ≤ status ∨ r.rawQuery ≠ "" then "no-store" else "public, max-age=300"

def notModified (lib : Library) (r : Request) (modTime : ℤ) : Bool :=
  let value := r.header.get "If-Modified-Since"
  if value = "" then false
  else match lib.parseTime value with
    | none => false
    | some since => modTime - modTime % 1000000000 ≤ since

def serveEntry (lib : Library) (site : StaticSite) (r : Request) (entry : StaticEntry)
    (status : ℕ) : Response :=
  let header : ResponseHeader :=
    [("Cache-Control", cacheControl r status),
      ("Content-Security-Policy", "default-src 'self'; style-src 'self'; img-src 'self'; " ++
        "worker-src 'none'; frame-ancestors 'none'; base-uri 'none'; form-action 'none'"),
      ("Referrer-Policy", "strict-origin-when-cross-origin"),
      ("X-Content-Type-Options", "nosniff"),
      ("X-Frame-Options", "DENY"),
      ("Permissions-Policy", "camera=(), microphone=(), geolocation=()"),
      ("Content-Type", entry.contentType),
      ("Last-Modified", lib.formatTime site.modTime)]
  if status = 200 ∧ notModified lib r site.modTime then { status := 304, header }
  else
    { status
      header := header ++ [("Content-Length", toString entry.body.length)]
      body := if r.method = "HEAD" then [] else entry.body }

end TproxyServer
