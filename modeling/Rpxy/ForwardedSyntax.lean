import Rpxy.RustText
import Rpxy.RustIpParser
import Rpxy.HttpHeaders
import Rpxy.RustResult

/-!
# The `Forwarded` header: chain entries, reader and writer

The bottom layer of `header_ops/forwarding.rs` for RFC 7239: the chain entry types, the
canonical form of addresses (`canonical_address.rs`), the quote-aware splitter, the
quoted-string reader, the `for=` node and port readers, the entry and header readers,
and the writer that regenerates a `Forwarded` value from a chain. An `anyhow` error is
its message. The byte scans of the source are scans over characters here: every
character they compare with is ASCII, and no byte of a multi-byte character is.
-/

namespace Rpxy.ForwardedSyntax

open RustText RustIpAddr RustIpParser HttpHeaders

/-! ### Entries of the forwarding chain -/

/-- `ForwardedNodeRaw`: how the `for=` node was written. -/
inductive ForwardedNodeRaw where
  | ip
  | unknown
  | obfuscated (s : List Char)
  deriving DecidableEq

/-- `ForwardedPort`, the RFC 7239 `node-port`. -/
inductive ForwardedPort where
  | numeric (p : UInt16)
  | obfuscated (s : List Char)
  deriving DecidableEq

/-- `ForwardedNode`: the `for=` value. -/
structure ForwardedNode where
  /-- The canonical address, for an address node. -/
  ip : Option IpAddr
  /-- The port after the node, if any. -/
  port : Option ForwardedPort
  /-- The written form of the node. -/
  raw : ForwardedNodeRaw
  deriving DecidableEq

/-- `ForwardedEntry`: one hop of the forwarding chain. -/
structure ForwardedEntry where
  /-- `for=`, required in every entry. -/
  forNode : ForwardedNode
  /-- `proto=`. -/
  proto : Option (List Char)
  /-- `host=`. -/
  host : Option (List Char)
  /-- `by=`. -/
  «by» : Option (List Char)
  deriving DecidableEq

/-! ### Canonical addresses -/

/-- `std::net::SocketAddr`; the IPv6 flow and scope fields are left out, as nothing here
reads them. -/
structure SocketAddr where
  /-- `SocketAddr::ip`. -/
  ip : IpAddr
  /-- `SocketAddr::port`. -/
  port : UInt16
  deriving DecidableEq

/-- `ToCanonical for SocketAddr`: an IPv4-compatible or IPv4-mapped IPv6 address becomes
IPv4, except `::1`, whose IPv4 image `0.0.0.1` stays IPv6. -/
def SocketAddr.toCanonical (a : SocketAddr) : SocketAddr :=
  match a.ip with
  | .v4 _ => a
  | .v6 v6 =>
    match v6.toIpv4 with
    | some mapped => if mapped = Ipv4Addr.new 0 0 0 1 then a else ⟨.v4 mapped, a.port⟩
    | none => a

/-- `canonicalize_ip`. -/
def canonicalizeIp (ip : IpAddr) : IpAddr := (SocketAddr.toCanonical ⟨ip, 0⟩).ip

/-! ### Splitting and quoted strings -/

/-- The byte loop of `split_respecting_quotes`: the open segment and the `in_quotes` and
`escaped` flags. A delimiter outside quotes closes the segment, trimmed. -/
def splitScan (delimiter : Char) : List Char → Bool → Bool → List Char → List (List Char)
  | seg, _, _, [] => [trim seg]
  | seg, inQuotes, true, c :: cs => splitScan delimiter (seg ++ [c]) inQuotes false cs
  | seg, inQuotes, false, c :: cs =>
    if c = '\\' ∧ inQuotes = true then splitScan delimiter (seg ++ [c]) inQuotes true cs
    else if c = '"' then splitScan delimiter (seg ++ [c]) (!inQuotes) false cs
    else if c = delimiter ∧ inQuotes = false then
      trim seg :: splitScan delimiter [] inQuotes false cs
    else splitScan delimiter (seg ++ [c]) inQuotes false cs

/-- `split_respecting_quotes`. -/
def splitRespectingQuotes (input : List Char) (delimiter : Char) : List (List Char) :=
  splitScan delimiter [] false false input

/-- The unescaping loop of `unquote_http_value`: the text so far and the `escaped` flag. -/
def unescapeScan : List Char → Bool → List Char → List Char × Bool
  | result, escaped, [] => (result, escaped)
  | result, true, c :: cs => unescapeScan (result ++ [c]) false cs
  | result, false, c :: cs =>
    if c = '\\' then unescapeScan result true cs else unescapeScan (result ++ [c]) false cs

/-- `unquote_http_value`: a trimmed token is kept; a quoted-string loses its quotes and
the backslash of each quoted-pair. -/
def unquoteHttpValue (value : List Char) : Except String (List Char) :=
  let trimmed := trim value
  if trimmed.head? ≠ some '"' then .ok trimmed
  else
    match (stripPrefix '"' trimmed).bind (stripSuffix '"') with
    | none => .error ("unterminated quoted-string `" ++ String.ofList trimmed ++ "`")
    | some inner =>
      match unescapeScan [] false inner with
      | (result, false) => .ok result
      | (_, true) =>
        .error ("unterminated escape sequence in quoted-string `" ++ String.ofList trimmed ++ "`")

/-! ### Reading a `for=` node -/

/-- `is_forwarded_obfuscated_id`: `"_" 1*(ALPHA / DIGIT / "." / "_" / "-")`. -/
def isForwardedObfuscatedId (s : List Char) : Bool :=
  match stripPrefix '_' s with
  | none => false
  | some rest => !rest.isEmpty && rest.all fun b => b.isAlphanum || b == '.' || b == '_' || b == '-'

/-- `is_obfnode`. -/
def isObfnode (s : List Char) : Bool := isForwardedObfuscatedId s

/-- `is_obfport`. -/
def isObfport (s : List Char) : Bool := isForwardedObfuscatedId s

/-- `parse_forwarded_port`: an `obfport`, or `1*5DIGIT` that fits `u16`. -/
def parseForwardedPort (port token : List Char) : Except String ForwardedPort :=
  if port.head? = some '_' then
    if isObfport port then .ok (.obfuscated port)
    else .error ("invalid forwarded obfport in `" ++ String.ofList token ++ "`: `" ++
      String.ofList port ++ "`")
  else if port.isEmpty || 5 < port.length || !port.all Char.isDigit then
    .error ("invalid forwarded port in `" ++ String.ofList token ++ "`: `" ++
      String.ofList port ++ "` is not 1*5DIGIT")
  else
    match u16FromStr port with
    | .ok p => .ok (.numeric p)
    | .error e => .error ("invalid forwarded port in `" ++ String.ofList token ++ "`: " ++ e)

/-- `IpAddr::from_str` on a node, with the error text of `parse_forwarded_node`. -/
def parseNodeAddress (token s : List Char) : Except String IpAddr :=
  (ipAddrFromStr s).mapError fun e => "invalid forwarded address `" ++ String.ofList token ++ "`: " ++ e

/-- The error of `parse_forwarded_node` for a name that starts with `_` but is no `obfnode`. -/
def invalidObfnodeText (token node : List Char) : String :=
  "invalid forwarded obfnode in `" ++ String.ofList token ++ "`: `" ++ String.ofList node ++ "`"

/-- The `[ip]:port` test of `parse_forwarded_node`: the text starts with `[` and its part
before the last `:` is bracketed; gives the text between the brackets and the port. -/
def bracketedNodePort (trimmed : List Char) : Option (List Char × List Char) :=
  if trimmed.head? = some '[' then
    (rsplitOnce ':' trimmed).bind fun (node, port) =>
      ((stripPrefix '[' node).bind (stripSuffix ']')).map fun inner => (inner, port)
  else none

/-- The `node:port` arm of `parse_forwarded_node` for a text with exactly one `:`;
`none` is the fall-through of the source to the port-less arms, taken when the node is
neither `unknown`, an `obfnode`, a name starting with `_`, nor an address. -/
def parseColonNode (token node port : List Char) : Option (Except String ForwardedNode) :=
  if eqIgnoreAsciiCase node "unknown".toList then
    some ((parseForwardedPort port token).map fun p => ⟨none, some p, .unknown⟩)
  else if isObfnode node then
    some ((parseForwardedPort port token).map fun p => ⟨none, some p, .obfuscated node⟩)
  else if node.head? = some '_' then
    some (.error (invalidObfnodeText token node))
  else
    match ipAddrFromStr node with
    | .ok ip => some ((parseForwardedPort port token).map fun p => ⟨some (canonicalizeIp ip), some p, .ip⟩)
    | .error _ => none

/-- The port-less arms of `parse_forwarded_node`: `[ip]`, an `obfnode`, or a bare address. -/
def parseBareNode (token trimmed : List Char) : Except String ForwardedNode :=
  match (stripPrefix '[' trimmed).bind (stripSuffix ']') with
  | some inner => (parseNodeAddress token inner).map fun ip => ⟨some (canonicalizeIp ip), none, .ip⟩
  | none =>
    if isObfnode trimmed then .ok ⟨none, none, .obfuscated trimmed⟩
    else if trimmed.head? = some '_' then .error (invalidObfnodeText token trimmed)
    else (parseNodeAddress token trimmed).map fun ip => ⟨some (canonicalizeIp ip), none, .ip⟩

/-- The arms of `parse_forwarded_node` after unquoting, in the order of the source. -/
def parseUnquotedNode (token trimmed : List Char) : Except String ForwardedNode :=
  if eqIgnoreAsciiCase trimmed "unknown".toList then .ok ⟨none, none, .unknown⟩
  else
    match bracketedNodePort trimmed with
    | some (inner, port) => do
      let ip ← parseNodeAddress token inner
      let p ← parseForwardedPort port token
      pure ⟨some (canonicalizeIp ip), some p, .ip⟩
    | none =>
      let colonArm :=
        if trimmed.count ':' = 1 then
          (rsplitOnce ':' trimmed).bind fun (node, port) => parseColonNode token node port
        else none
      match colonArm with
      | some r => r
      | none => parseBareNode token trimmed

/-- `parse_forwarded_node`. -/
def parseForwardedNode (token : List Char) : Except String ForwardedNode :=
  (unquoteHttpValue token).bind (parseUnquotedNode token)

/-! ### Reading entries and the header -/

/-- The parameters `parse_forwarded_header_entry` has read so far. -/
structure EntryParams where
  /-- `for_node`. -/
  forNode : Option ForwardedNode
  /-- `proto`. -/
  proto : Option (List Char)
  /-- `host`. -/
  host : Option (List Char)
  /-- `by`. -/
  «by» : Option (List Char)

/-- A parameter that may be given once in an entry: a second one is an error. -/
def setParamOnce {α : Type} (key : String) (current : Option α) (value : Except String α) :
    Except String (Option α) :=
  if current.isSome then .error ("forwarded header entry contains duplicate " ++ key ++ "= parameter")
  else value.map some

/-- One `key=value` parameter of `parse_forwarded_header_entry`; a parameter without `=`
and an unknown key are skipped. -/
def readEntryParam (acc : EntryParams) (param : List Char) : Except String EntryParams :=
  match splitOnce '=' param with
  | none => .ok acc
  | some (key, value) =>
    let key := toAsciiLowercase (trim key)
    let value := trim value
    if key = "for".toList then
      (setParamOnce "for" acc.forNode (parseForwardedNode value)).map fun v => { acc with forNode := v }
    else if key = "proto".toList then
      (setParamOnce "proto" acc.proto (unquoteHttpValue value)).map fun v => { acc with proto := v }
    else if key = "host".toList then
      (setParamOnce "host" acc.host (unquoteHttpValue value)).map fun v => { acc with host := v }
    else if key = "by".toList then
      (setParamOnce "by" acc.«by» (unquoteHttpValue value)).map fun v => { acc with «by» := v }
    else .ok acc

/-- The error of an entry without `for=`. -/
def missingForText : String := "forwarded header entry missing for= parameter"

/-- `parse_forwarded_header_entry`. -/
def parseForwardedHeaderEntry (entry : List Char) : Except String ForwardedEntry := do
  let params ← ((splitRespectingQuotes entry ';').filter fun p => !p.isEmpty).foldlM
    readEntryParam ⟨none, none, none, none⟩
  match params.forNode with
  | none => .error missingForText
  | some forNode => pure ⟨forNode, params.proto, params.host, params.«by»⟩

/-- `header::FORWARDED`. -/
def forwardedName : List Char := "forwarded".toList

/-- `HeaderValue::to_str` with the error text of `join_header_values`. -/
def headerValueStr (v : HeaderValue) : Except String (List Char) :=
  v.toStr.mapError fun e => "invalid header value: " ++ e

/-- The joining loop of `join_header_values` over the field-lines after the first. -/
def joinRest : List Char → List HeaderValue → Except String (List Char)
  | joined, [] => .ok joined
  | joined, v :: vs => do
    let s ← headerValueStr v
    joinRest (joined ++ ", ".toList ++ s) vs

/-- `join_header_values`: the field-lines of a header joined with `, `; every line must
be visible ASCII. -/
def joinHeaderValues (headers : HeaderMap) (key : List Char) : Except String (Option (List Char)) :=
  match headers.getAll key with
  | [] => .ok none
  | [first] => (headerValueStr first).map some
  | first :: second :: rest => do
    let first ← headerValueStr first
    (joinRest first (second :: rest)).map some

/-- `parse_forwarded_header`. -/
def parseForwardedHeader (headers : HeaderMap) : Except String (List ForwardedEntry) := do
  match ← joinHeaderValues headers forwardedName with
  | none => .error "forwarded header missing"
  | some forwarded =>
    ((splitRespectingQuotes forwarded ',').filter fun e => !e.isEmpty).mapM parseForwardedHeaderEntry

/-! ### Writing -/

/-- `is_tchar`: the RFC 7230 token characters. -/
def isTchar (c : Char) : Bool := "!#$%&'*+-.^_`|~".toList.contains c || c.isAlphanum

/-- The quoted-pair escaping loop of `write_forwarded_param_value`. -/
def escapeQuotedPairs (value : List Char) : List Char :=
  value.flatMap fun ch => if ch = '\\' ∨ ch = '"' then ['\\', ch] else [ch]

/-- `write_forwarded_param_value`: a non-empty token as is, anything else quoted. -/
def writeForwardedParamValue (value : List Char) : List Char :=
  if !value.isEmpty && value.all isTchar then value
  else '"' :: escapeQuotedPairs value ++ ['"']

/-- `push_forwarded_port`. -/
def pushForwardedPort : ForwardedPort → List Char
  | .numeric p => Nat.toDigits 10 p.toNat
  | .obfuscated s => s

/-- `push_ipv4`: each octet by `itoa`, dot-separated, which is the `Display` text. -/
def pushIpv4 (v4 : Ipv4Addr) : List Char := v4.toText

/-- `push_ip_addr`. -/
def pushIpAddr : IpAddr → List Char
  | .v4 v4 => pushIpv4 v4
  | .v6 v6 => v6.toText

/-- The error of `write_forwarded_node` for a node whose fields disagree. -/
def invalidNodeStateText : String := "invalid forwarded node state"

/-- `write_forwarded_node`. -/
def writeForwardedNode (node : ForwardedNode) : Except String (List Char) :=
  match node.raw, node.ip, node.port with
  | .ip, some (.v4 v4), none => .ok (pushIpv4 v4)
  | .ip, some (.v4 v4), some p => .ok ('"' :: pushIpv4 v4 ++ ':' :: pushForwardedPort p ++ ['"'])
  | .ip, some (.v6 v6), none => .ok ("\"[".toList ++ v6.toText ++ "]\"".toList)
  | .ip, some (.v6 v6), some p =>
    .ok ("\"[".toList ++ v6.toText ++ "]:".toList ++ pushForwardedPort p ++ ['"'])
  | .unknown, none, none => .ok "unknown".toList
  | .unknown, none, some p => .ok ("\"unknown:".toList ++ pushForwardedPort p ++ ['"'])
  | .obfuscated s, none, none => .ok s
  | .obfuscated s, none, some p => .ok ('"' :: s ++ ':' :: pushForwardedPort p ++ ['"'])
  | _, _, _ => .error invalidNodeStateText

/-- An optional `;key=value` parameter of `generate_forwarded_header`. -/
def writeOptionalParam (key : String) : Option (List Char) → List Char
  | none => []
  | some v => (";" ++ key ++ "=").toList ++ writeForwardedParamValue v

/-- One entry of `generate_forwarded_header`. -/
def writeForwardedEntry (entry : ForwardedEntry) : Except String (List Char) :=
  (writeForwardedNode entry.forNode).map fun node =>
    "for=".toList ++ node ++ writeOptionalParam "proto" entry.proto ++
      writeOptionalParam "host" entry.host ++ writeOptionalParam "by" entry.«by»

/-- `generate_forwarded_header`: the entries joined with `, `; the first node the writer
rejects fails the whole header. -/
def generateForwardedHeader (chain : List ForwardedEntry) : Except String (List Char) :=
  if chain.isEmpty then .error "No forwarding chain found for Forwarded generation"
  else (chain.mapM writeForwardedEntry).map (List.intercalate ", ".toList)

/-! ### Well-formed chains

What the reader produces; the writer accepts more (any address, any port text). -/

/-- The ports the reader produces: a number, or a valid `obfport`. -/
def ForwardedPort.isWellFormed : ForwardedPort → Bool
  | .numeric _ => true
  | .obfuscated p => isObfport p

/-- The nodes the reader produces: a canonical address, `unknown`, or a valid `obfnode`,
each with an optional well-formed port. -/
def ForwardedNode.isWellFormed (n : ForwardedNode) : Bool :=
  n.port.all ForwardedPort.isWellFormed &&
    match n.raw, n.ip with
    | .ip, some a => canonicalizeIp a == a
    | .unknown, none => true
    | .obfuscated s, none => isObfnode s
    | _, _ => false

/-- The entries the reader produces: a well-formed node. -/
def ForwardedEntry.isWellFormed (e : ForwardedEntry) : Bool := e.forNode.isWellFormed

/-- Every character of the `proto=`, `host=` and `by=` values is header text. -/
def ForwardedEntry.hasHeaderText (e : ForwardedEntry) : Bool :=
  [e.proto, e.host, e.«by»].all fun v => v.all fun t => t.all isHeaderTextChar

end Rpxy.ForwardedSyntax
