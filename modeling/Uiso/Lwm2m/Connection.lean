/-
  Lwm2m/Connection.lean --- the sessions of the LWM2M client: `connection.c`, the
  connect and close callbacks of `uiso_lightclient.c`, and the parts of
  `mbedtls_connector.c` that touch the ssl context.

  There is one network context for all sessions, `wifi_service_lwm2m_socket`; the
  programs here run on it.  A session is a node of `connList`, named by its
  allocation.  The ssl context is a global that is registered with the network
  context once it is set up, so initialising or freeing it shows in the context.
-/
import Uiso.Network.Transfer

set_option autoImplicit false

namespace Uiso.Lwm2m

open Uiso.Foundation
open Uiso.Network

/-! ## The ssl context -/

/-- `mbedtls_ssl_init` and `mbedtls_ssl_free` on the global `ssl_context`: both
leave it zeroed. -/
def resetSslContext : Prog World Unit :=
  Prog.modify fun w => w.setCtx fun ctx =>
    { ctx with sslContext := ctx.sslContext.map fun _ => SslContext.fresh }

/-- The end of `mbedtls_connector_initialize`: register the context if all went
well. -/
def registerConfigured (configured : Int) : Prog World Int :=
  if configured = 0 then uisoNetworkRegisterSslContext .fresh else pure configured

/-- `mbedtls_connector_initialize`; `configured` is the result of the
configuration steps. -/
def mbedtlsConnectorInitialize (configured : Int) : Prog World Int := do
  resetSslContext
  registerConfigured configured

/-- `mbedtls_cleanup`, as far as the network sees it. -/
def mbedtlsCleanup : Prog World Unit := resetSslContext

/-- `mbedtls_connector_close` -/
def mbedtlsConnectorClose : Prog World Unit := do
  let _ ← sslCall .closeNotify
  mbedtlsCleanup

/-! ## Server URIs -/

/-- What follows `coaps://` or `coap://`. -/
def stripScheme : List Char → Option (List Char)
  | 'c' :: 'o' :: 'a' :: 'p' :: 's' :: ':' :: '/' :: '/' :: host => some host
  | 'c' :: 'o' :: 'a' :: 'p' :: ':' :: '/' :: '/' :: host => some host
  | _ => none

/-- The parts before and after the last `:` (`strrchr`). -/
def splitLastColon : List Char → Option (List Char × List Char)
  | [] => none
  | c :: cs =>
      match splitLastColon cs with
      | some (host, port) => some (c :: host, port)
      | none => if c = ':' then some ([], cs) else none

/-- Remove the brackets around an address; an opening bracket must be closed. -/
def removeBrackets : List Char → Option (List Char)
  | '[' :: host => if host.getLast? = some ']' then some host.dropLast else none
  | host => some host

/-- Host and port of a URI of the form `coaps://[host]:[port]`. -/
def parseServerUri (uri : String) : Option (String × String) := do
  let rest ← stripScheme uri.toList
  let (host, port) ← splitLastColon rest
  let host ← removeBrackets host
  return (String.ofList host, String.ofList port)

/-! ## Sessions -/

/-- What the outside decides in `lwm2m_connect_server`. -/
structure ServerRequest where
  /-- the URI in the security object, if there is one -/
  uri : Option String
  /-- the result of configuring mbedTLS -/
  configured : Int
  /-- the node `lwm2m_malloc` gives, if it does -/
  node : Option Nat
  deriving DecidableEq, Repr

/-- The end of `connection_create`: the new node is appended to a list that is
not empty. -/
def appendConnection (newConn : Nat) (connList : List Nat) (ret : Int) :
    Option Nat × List Nat :=
  if 0 ≤ ret then (some newConn, if connList = [] then [] else connList ++ [newConn])
  else (none, connList)

/-- `connection_create`; it gives the new connection and the list it was handed. -/
def connectionCreate (net : StackAnswers) (node : Option Nat) (connList : List Nat)
    (host port : String) (protocol : Protocol) : Prog World (Option Nat × List Nat) :=
  match node with
  | none => pure (none, connList)
  | some newConn => do
      let ret ← uisoCreateNetworkConnection net ⟨host, port, none, protocol⟩
      return appendConnection newConn connList ret

/-- The connection attempt, if mbedTLS is set up. -/
def createIfConfigured (net : StackAnswers) (req : ServerRequest) (connList : List Nat)
    (host port : String) (ret : Int) : Prog World (Option Nat × List Nat) :=
  if ret = 0 then connectionCreate net req.node connList host port .dtlsIp4
  else pure (none, connList)

/-- The end of `lwm2m_connect_server`. -/
def finishConnect : Option Nat × List Nat → Prog World (Option Nat × List Nat)
  | (none, connList) => do
      mbedtlsCleanup
      return (none, connList)
  | (some newConn, connList) =>
      pure (some newConn, if connList = [] then [newConn] else connList)

/-- `lwm2m_connect_server`; it gives the new session and the list of sessions. -/
def lwm2mConnectServer (net : StackAnswers) (req : ServerRequest) (connList : List Nat) :
    Prog World (Option Nat × List Nat) :=
  match req.uri.bind parseServerUri with
  | none => pure (none, connList)
  | some (host, port) => do
      let ret ← mbedtlsConnectorInitialize req.configured
      let created ← createIfConfigured net req connList host port ret
      finishConnect created

/-- `lwm2m_close_connection`; it gives the list of sessions that are left. -/
def lwm2mCloseConnection (session : Nat) (connList : List Nat) : Prog World (List Nat) := do
  mbedtlsConnectorClose
  return connList.erase session

/-! ## Sending -/

/-- `COAP_NO_ERROR` -/
def coapNoError : UInt8 := 0x00
/-- `COAP_500_INTERNAL_SERVER_ERROR` -/
def coap500InternalServerError : UInt8 := 0xA0

/-- `connection_send` -/
def connectionSend (now later : UInt32) (length : Nat) : Prog World Int := do
  let nbSent ← uisoNetworkSend now later length
  return if nbSent < 0 then -1 else nbSent

/-- `lwm2m_buffer_send` -/
def lwm2mBufferSend (session : Option Nat) (now later : UInt32) (length : Nat) :
    Prog World UInt8 :=
  match session with
  | none => pure coap500InternalServerError
  | some _ => do
      let sent ← connectionSend now later length
      return if sent = -1 then coap500InternalServerError else coapNoError

end Uiso.Lwm2m
