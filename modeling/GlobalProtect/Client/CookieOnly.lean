import GlobalProtect.Gateway.Login
import GlobalProtect.Lib.Shell
import GlobalProtect.Lib.Url
import GlobalProtect.Portal.ParseGateways

/-! # Printing the cookie

With `--cookie-only` the client logs in to a gateway and prints two lines for a shell
(`connect/gateway.rs`): the cookie and the address of the gateway, each in single quotes. The address
is the one of the portal's answer, as it is. What the client asks of it is that it can be made a
server (`normalize_server`, `utils/mod.rs`), which leaves out the path.

The cookie never has a quote. So the lines say what they should exactly if the address has none
(`printed_evaluated_iff`); a portal can send one that has (`address_executed`). -/

namespace GlobalProtect.Client.CookieOnly

open Api Gateway Lib

inductive ServerError where
  | url
  | missingHost
  deriving DecidableEq, Repr

def normalizeServer (parser : UrlParser) (server : String) : Except ServerError String :=
  let server :=
    if "https://".toList <+: server.toList ∨ "http://".toList <+: server.toList then server
    else "https://" ++ server
  match parser.parse server with
  | none => .error .url
  | some url =>
    match url.host with
    | none => .error .missingHost
    | some host =>
      let port := (url.port.map fun port => ":" ++ toString port).getD ""
      .ok (url.scheme ++ "://" ++ host ++ port)

/-- `GatewayLoginClient::new`: the server that requests go to. -/
def origin (parser : UrlParser) (gateway : String) : Option Url := do
  parser.parse (← (normalizeServer parser gateway).toOption)

def printed (cookie gateway : String) : String :=
  "COOKIE='" ++ cookie ++ "'\n" ++ ("HOST='" ++ gateway ++ "'\n")

/-- Connecting to a gateway that answers the login so. Nothing is printed if a step fails. -/
def connectGateway (parser : UrlParser) (gateway : Gateway) (answer : Xml.Node)
    (computer : String) : Option (GatewayAuthentication × String) := do
  let _ ← origin parser gateway.server
  let (cookie, connectionType) ← (parseIssuedAuthentication answer computer).toOption
  let authentication ← (GatewayAuthentication.new cookie (← connectionType.toOption)).toOption
  return (authentication, printed authentication.cookie gateway.server)

theorem toList_printed (cookie gateway : String) :
    (printed cookie gateway).toList =
      Shell.line "COOKIE".toList cookie.toList ++ Shell.line "HOST".toList gateway.toList := by
  have hcookie : "COOKIE='".toList = "COOKIE".toList ++ ['=', '\''] := by decide
  have hhost : "HOST='".toList = "HOST".toList ++ ['=', '\''] := by decide
  have hend : "'\n".toList = ['\'', '\n'] := by decide
  rw [printed]
  simp only [String.toList_append, hcookie, hhost, hend, Shell.line, List.append_assoc,
    List.cons_append, List.nil_append]

theorem connectGateway_some {parser : UrlParser} {gateway : Gateway} {answer : Xml.Node}
    {computer : String} {a : GatewayAuthentication} {text : String}
    (h : connectGateway parser gateway answer computer = some (a, text)) :
    text = printed a.cookie gateway.address ∧
      ∃ args, a.cookie = token (tokenParams args computer) := by
  obtain ⟨-, -, h⟩ := Option.bind_eq_some_iff.mp h
  obtain ⟨⟨cookie, connectionType⟩, hissued, h⟩ := Option.bind_eq_some_iff.mp h
  obtain ⟨mode, -, h⟩ := Option.bind_eq_some_iff.mp h
  obtain ⟨authentication, hnew, h⟩ := Option.bind_eq_some_iff.mp h
  obtain ⟨rfl, rfl⟩ := Prod.mk.inj (Option.some.inj h)
  obtain ⟨args, hargs⟩ := parseIssuedAuthentication_ok (toOption_eq_some.mp hissued)
  refine ⟨rfl, args, ?_⟩
  rw [GatewayAuthentication.cookie_of_new (toOption_eq_some.mp hnew)]
  exact (buildGatewayToken_ok hargs).1

/-- **The printed lines assign the cookie and the address, and do nothing else, exactly if the address
has no quote.** -/
theorem printed_evaluated_iff {parser : UrlParser} {gateway : Gateway} {answer : Xml.Node}
    {computer : String} {a : GatewayAuthentication} {text : String}
    (h : connectGateway parser gateway answer computer = some (a, text)) :
    Shell.evaluate text.toList =
        some [.assign "COOKIE" a.cookie, .assign "HOST" gateway.address] ↔
      '\'' ∉ gateway.address.toList ∧ '\x00' ∉ gateway.address.toList := by
  obtain ⟨rfl, args, hcookie⟩ := connectGateway_some h
  obtain ⟨hquote, hnul⟩ := quote_notMem_token args computer
  rw [← hcookie] at hquote hnul
  have hcookieName : Shell.isName ("COOKIE".toList.map (·, false)) = true := by decide
  have hhostName : Shell.isName ("HOST".toList.map (·, false)) = true := by decide
  have hfirst := Shell.run_line a.cookie.toList [] hcookieName hquote hnul
  have hsecond := Shell.evaluate_line_iff gateway.address.toList [.assign "COOKIE" a.cookie]
    hhostName
  rw [String.ofList_toList, String.ofList_toList] at hfirst hsecond
  rw [← hsecond, Shell.evaluate, toList_printed, Machine.run_append_of_run hfirst]
  rfl

/-- The answer of a gateway with a user name and a connection type. -/
def loginAnswer : Xml.Node :=
  .element "jnlp" [] [.element "application-desc" []
    (["", "c", "", "", "u", "", "", "", "", "", "", "", "tunnel"].map fun argument =>
      .element "argument" [] [.text argument])]

theorem printed_evaluated_plain :
    Shell.evaluate (printed "authcookie=c&user=u&computer=pc" "vpn.example.com").toList =
      some [.assign "COOKIE" "authcookie=c&user=u&computer=pc", .assign "HOST" "vpn.example.com"] := by
  have hconnect : connectGateway .plain { name := "", address := "vpn.example.com" } loginAnswer
      "pc" = some ({ cookie := "authcookie=c&user=u&computer=pc", connectionType := "tunnel" },
        printed "authcookie=c&user=u&computer=pc" "vpn.example.com") := by decide +kernel
  exact (printed_evaluated_iff hconnect).mpr (by decide)

/-- The answer of a portal with a quote in the address of a gateway. -/
def portalAnswer : Xml.Node :=
  .element "policy" [] [.element "gateways" [] [.element "external" [] [.element "list" []
    [.element "entry" [("name", "vpn.example.com/';id'")] []]]]]

/-- The client prints a command of the portal. -/
theorem address_executed :
    Portal.parseGateways portalAnswer false =
        some [{ name := "", address := "vpn.example.com/';id'", priority := 4294967295 }] ∧
      connectGateway .plain
          { name := "", address := "vpn.example.com/';id'", priority := 4294967295 } loginAnswer
          "pc" =
        some ({ cookie := "authcookie=c&user=u&computer=pc", connectionType := "tunnel" },
          "COOKIE='authcookie=c&user=u&computer=pc'\nHOST='vpn.example.com/';id''\n") ∧
      Shell.evaluate
          "COOKIE='authcookie=c&user=u&computer=pc'\nHOST='vpn.example.com/';id''\n".toList =
        some [.assign "COOKIE" "authcookie=c&user=u&computer=pc",
          .assign "HOST" "vpn.example.com/", .execute ["id"]] := by
  decide +kernel

end GlobalProtect.Client.CookieOnly
