import Kannel.Gwlib.ConnPoll
import Kannel.Gwlib.HttpEntity

/-!
# The HTTP server's connections

A client is with the `fdset` thread, then in the queue of a port, then with the application; one
acts at a time.
-/

namespace Kannel

inductive HttpMethod
  | get | post | head | put | delete | patch
  deriving DecidableEq, Repr

def httpName2method (method : Octstr) : Option HttpMethod :=
  let name := octstrGetCstr (some method)
  if name = ascii "GET" then some .get
  else if name = ascii "POST" then some .post
  else if name = ascii "HEAD" then some .head
  else if name = ascii "PUT" then some .put
  else if name = ascii "DELETE" then some .delete
  else if name = ascii "PATCH" then some .patch
  else none

def parseHttpVersion (version : Octstr) : Option Bool :=
  let start := ascii "HTTP/1."
  if !octstrNcompareEq version start start.length then none
  else if version.length ≠ start.length + 1 then none
  else
    match octstrGetChar version start.length with
    | none => none
    | some digit => if !isdigit digit then none else some (digit = 48)

def parseRequestLine (line : Octstr) : Option (HttpMethod × Octstr × Bool) :=
  match octstrSplitWords line with
  | [method, url, version] =>
    match httpName2method method, parseHttpVersion version with
    | some method, some useVersion10 => some (method, url, useVersion10)
    | _, _ => none
  | _ => none

inductive ClientState
  | readingRequestLine | readingRequest | requestIsBeingHandled | sendingReply
  deriving DecidableEq, Repr

structure HTTPClient where
  conn : Connection
  state : ClientState
  method : Option HttpMethod
  url : Option Octstr
  useVersion10 : Bool
  persistentConn : Bool
  request : Option HTTPEntity
  deriving DecidableEq, Repr

def clientCreate (conn : Connection) : HTTPClient where
  conn := conn
  state := .readingRequestLine
  method := none
  url := none
  useVersion10 := false
  persistentConn := true
  request := none

def clientReset (client : HTTPClient) : HTTPClient :=
  { client with state := .readingRequestLine }

def clientIsPersistent (headers : List Octstr) (useVersion10 : Bool) : Bool :=
  match httpHeaderFindFirst headers (ascii "Connection") with
  | none => !useVersion10
  | some h =>
    let values := octstrSplit h 44
    if values.any (equalIgnoringCase · (ascii "keep-alive")) then true
    else if values.any (equalIgnoringCase · (ascii "close")) then false
    else !useVersion10

def httpReasonPhrase (status : Nat) : String :=
  match status with
  | 200 => "OK"
  | 201 => "Created"
  | 202 => "Accepted"
  | 204 => "No Content"
  | 205 => "Reset Content"
  | 301 => "Moved Permanently"
  | 302 => "Found"
  | 303 => "See Other"
  | 304 => "Not Modified"
  | 307 => "Temporary Redirect"
  | 400 => "Bad Request"
  | 401 => "Unauthorized"
  | 403 => "Forbidden"
  | 404 => "Not Found"
  | 405 => "Method Not Allowed"
  | 406 => "Not Acceptable"
  | 413 => "Request Entity Too Large"
  | 415 => "Unsupported Media Type"
  | 500 => "Internal Server Error"
  | 501 => "Not Implemented"
  | 502 => "Bad Gateway"
  | _ => "Foo"

structure Reply where
  status : Nat
  stamp : Octstr
  headers : List Octstr
  body : Option Octstr
  deriving DecidableEq, Repr

def replyText (client : HTTPClient) (reply : Reply) : Octstr :=
  let crlf : Octstr := [13, 10]
  (if client.useVersion10 then ascii "HTTP/1.0 " else ascii "HTTP/1.1 ")
    ++ formatDecimal reply.status ++ [32] ++ ascii (httpReasonPhrase reply.status) ++ crlf
    ++ reply.stamp
    ++ ascii "Content-Length: " ++ formatDecimal (reply.body.getD []).length ++ crlf
    ++ (if client.persistentConn then ascii "Connection: Keep-Alive" else ascii "Connection: Close")
    ++ crlf
    ++ reply.headers.flatMap (· ++ crlf)
    ++ crlf
    ++ (if client.method ≠ some .head ∧ client.method ≠ some .delete then reply.body.getD []
      else [])

inductive Holder
  | fdset | queue | application | destroyed
  deriving DecidableEq, Repr

structure ServerState where
  client : HTTPClient
  holder : Holder
  deriving DecidableEq, Repr

def httpSendReply (client : HTTPClient) (reply : Reply) : ServerState :=
  match connWrite client.conn (replyText client reply) with
  | (.emptied, conn) =>
    let client := { client with conn := conn }
    if !client.persistentConn then ⟨client, .destroyed⟩
    else
      let client := clientReset client
      ⟨{ client with conn := connRegister client.conn }, .fdset⟩
  | (.left, conn) =>
    ⟨{ client with conn := connRegister conn, state := .sendingReply }, .fdset⟩
  | (.failed, conn) => ⟨{ client with conn := conn }, .destroyed⟩

def dropClient (client : HTTPClient) : ServerState :=
  ⟨{ client with conn := connUnregister client.conn }, .destroyed⟩

def receiveEntity (client : HTTPClient) (request : HTTPEntity) : ServerState :=
  match entityRead request client.conn with
  | (.failed, request, conn) => dropClient { client with request := some request, conn := conn }
  | (.complete, request, conn) =>
    ⟨{ client with
        request := some request
        conn := connUnregister conn
        state := .requestIsBeingHandled }, .queue⟩
  | (.more, request, conn) =>
    ⟨{ client with request := some request, conn := conn, state := .readingRequest }, .fdset⟩

def receiveLine (client : HTTPClient) (stamp : Octstr) : ServerState :=
  match connReadLine client.conn with
  | (none, conn) =>
    let client := { client with conn := conn }
    if conn.ended then dropClient client else ⟨client, .fdset⟩
  | (some line, conn) =>
    let client := { client with conn := conn }
    match parseRequestLine line with
    | none =>
      httpSendReply { client with persistentConn := false, conn := connUnregister conn }
        { status := 400, stamp := stamp, headers := [], body := none }
    | some (method, url, useVersion10) =>
      receiveEntity { client with method := some method, url := some url,
                                  useVersion10 := useVersion10 }
        (entityCreate .expectBodyIfIndicated)

def receiveRequest (client : HTTPClient) (stamp : Octstr) : Option ServerState :=
  match client.state with
  | .readingRequestLine => some (receiveLine client stamp)
  | .readingRequest => client.request.map (receiveEntity client)
  | .sendingReply =>
    if client.conn.ioError then some (dropClient client)
    else if 0 < unlockedOutbufLen client.conn then some ⟨client, .fdset⟩
    else if !client.persistentConn then
      some ⟨{ client with conn := connUnregister client.conn }, .destroyed⟩
    else some (receiveLine (clientReset client) stamp)
  | .requestIsBeingHandled => none

def httpAcceptRequest (client : HTTPClient) (polled : Option PollEvents) : ServerState :=
  let conn := connWait client.conn polled
  if conn.ended then ⟨{ client with conn := conn }, .destroyed⟩
  else
    let headers := (client.request.map HTTPEntity.headers).getD []
    ⟨{ client with
        conn := conn
        persistentConn := clientIsPersistent headers client.useVersion10
        url := none
        request := none }, .application⟩

inductive ServerAction
  | poll (revents : PollEvents) (stamp : Octstr)
  | accept (polled : Option PollEvents)
  | reply (reply : Reply)
  | close
  deriving DecidableEq, Repr

def serverStep (s : ServerState) : ServerAction → Option ServerState
  | .poll revents stamp =>
    if s.holder = .fdset ∧ s.client.conn.expects revents then
      let polled := pollCallback s.client.conn revents
      let client := { s.client with conn := polled.1 }
      if polled.2 then receiveRequest client stamp else some ⟨client, .fdset⟩
    else none
  | .accept polled =>
    if s.holder = .queue then some (httpAcceptRequest s.client polled) else none
  | .reply reply =>
    if s.holder = .application then some (httpSendReply s.client reply) else none
  | .close => if s.holder = .application then some ⟨s.client, .destroyed⟩ else none

def acceptedClient (fd : Descriptor) : ServerState :=
  ⟨clientCreate (connRegister (connWrapFd fd)), .fdset⟩

end Kannel
