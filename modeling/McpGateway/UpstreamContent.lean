import Mathlib
import McpGateway.PyText
import McpGateway.JsonValue
import McpGateway.PyRuntime

/-!
# Results and errors of an upstream

Content blocks of a tool result are flattened into one JSON value, and a
result marked as an error becomes an exception that carries the flattened
text. Every other failure of the protocol session becomes the same kind of
exception with the failure's own text.
-/

namespace McpGateway.UpstreamContent

open PyText JsonValue PyRuntime

/-- `UpstreamError`. -/
structure UpstreamError where
  /-- Exception text. -/
  message : String
  /-- JSON-RPC code. -/
  code : ℤ := -32000
  deriving DecidableEq

/-- One content block of a tool result. -/
inductive ContentBlock where
  /-- Plain text. -/
  | text (value : String)
  /-- An image with its MIME type and encoded data. -/
  | image (mimeType data : String)
  /-- An embedded resource, as its JSON dump. -/
  | resource (dump : Json)
  /-- Any other block, by its printed form. -/
  | other (printed : String)

/-- A tool result as the protocol session returns it. -/
structure CallToolResult where
  /-- Content blocks. -/
  content : List ContentBlock
  /-- Whether the tool reports an error. -/
  isError : Bool

/-- The JSON form of one block. -/
def ContentBlock.part : ContentBlock→Json
  | .text value => .str value
  | .image mimeType data =>
    .obj [("type",.str "image"),("mimeType",.str mimeType),("data",.str data)]
  | .resource dump => .obj [("type",.str "resource"),("resource",dump)]
  | .other printed => .str printed

/-- A single block stands alone, any other number forms a list. -/
def payload (blocks : List ContentBlock) : Json :=
  match blocks.map ContentBlock.part with
  | [part] => part
  | parts => .arr parts

/-- `str` of a flattened payload. -/
def payloadText (rt : Runtime) : Json→String
  | .str text => text
  | v => rt.strValue v

/-- `_extract_content`. -/
def extractContent (rt : Runtime) (result : CallToolResult) : Except UpstreamError Json :=
  if result.isError=true then .error ⟨payloadText rt (payload result.content),-32603⟩
  else .ok (payload result.content)

/-- How a session ends one tool call, after all retries. -/
inductive UpstreamOutcome where
  /-- The upstream answered. -/
  | answered (result : CallToolResult)
  /-- The client refused or failed before the request was sent. -/
  | refused (error : UpstreamError)
  /-- The session or transport raised an exception with this text. -/
  | failed (text : String)
  /-- The waiting task was cancelled. -/
  | cancelled

/-- What awaiting `MCPClient.call_tool` yields. -/
inductive UpstreamAnswer where
  /-- Extracted content. -/
  | content (value : Json)
  /-- `UpstreamError`. -/
  | upstreamError (error : UpstreamError)
  /-- Any other exception, by its text. -/
  | exception (text : String)
  /-- Cancellation, which no handler catches. -/
  | cancelled

/-- The exception handling of `MCPClient.call_tool`: an `UpstreamError` passes,
every other exception is wrapped into one. -/
def clientAnswer (rt : Runtime) : UpstreamOutcome→UpstreamAnswer
  | .answered result =>
    match extractContent rt result with
    | .ok value => .content value
    | .error error => .upstreamError error
  | .refused error => .upstreamError error
  | .failed text => .upstreamError ⟨text,-32000⟩
  | .cancelled => .cancelled

end McpGateway.UpstreamContent
