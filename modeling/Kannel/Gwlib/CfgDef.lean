import Kannel.Gwlib.OctstrText

/-!
# Configuration groups and their variables

The table of `cfg.def`, and the two functions `cfg.c` makes of it. Other boxes bring tables of
their own.
-/

namespace Kannel

structure GroupDef where
  single : Bool
  name : String
  fields : List String

def cfgDef : List GroupDef := [
  { single := true, name := "core", fields :=
    ["admin-port", "admin-port-ssl", "admin-interface", "admin-password", "status-password",
      "admin-deny-ip", "admin-allow-ip", "smsbox-port", "smsbox-port-ssl", "smsbox-interface",
      "smsbox-max-pending", "wapbox-port", "wapbox-port-ssl", "box-deny-ip", "box-allow-ip",
      "udp-deny-ip", "udp-allow-ip", "wdp-interface-name", "log-file", "log-level", "log-format",
      "syslog-level", "syslog-facility", "access-log", "access-log-time", "access-log-format",
      "access-log-clean", "store-file", "store-dump-freq", "store-type", "store-location",
      "unified-prefix", "white-list", "white-list-regex", "black-list", "black-list-regex",
      "white-list-sender", "white-list-sender-regex", "black-list-sender",
      "black-list-sender-regex", "white-list-receiver", "white-list-receiver-regex",
      "black-list-receiver", "black-list-receiver-regex", "http-proxy-host", "http-proxy-port",
      "http-proxy-ssl", "http-proxy-exceptions", "http-proxy-exceptions-regex",
      "http-proxy-username", "http-proxy-password", "ssl-client-certkey-file",
      "ssl-server-cert-file", "ssl-server-key-file", "ssl-trusted-ca-file",
      "ssl-client-cipher-list", "ssl-server-cipher-list", "dlr-storage", "dlr-spool",
      "maximum-queue-length", "sms-incoming-queue-limit", "sms-outgoing-queue-limit",
      "sms-resend-freq", "sms-resend-retry", "sms-combine-concatenated-mo",
      "sms-combine-concatenated-mo-timeout", "http-timeout"] },
  { single := true, name := "wapbox", fields :=
    ["bearerbox-host", "timer-freq", "url-map", "map-url", "map-url-max", "map-url-0",
      "map-url-1", "map-url-2", "map-url-3", "map-url-4", "map-url-5", "map-url-6", "map-url-7",
      "map-url-8", "map-url-9", "device-home", "log-file", "log-level", "syslog-level",
      "syslog-facility", "smart-errors", "access-log", "access-log-time", "access-log-clean",
      "http-interface-name", "concatenation", "max-messages", "wml-strict", "http-timeout"] },
  { single := false, name := "wap-url-map", fields :=
    ["name", "url", "map-url", "send-msisdn-query", "send-msisdn-header", "send-msisdn-format",
      "accept-cookies"] },
  { single := false, name := "wap-user-map", fields :=
    ["name", "user", "pass", "msisdn"] },
  { single := true, name := "wtls", fields :=
    ["certificate-file", "privatekey-file", "privatekey-password"] },
  { single := true, name := "ppg", fields :=
    ["ppg-url", "ppg-port", "ppg-ssl-port", "trusted-pi", "concurrent-pushes", "users",
      "ppg-allow-ip", "ppg-deny-ip", "ssl-server-cert-file", "ssl-server-key-file",
      "global-sender", "default-smsc", "default-dlr-url", "ppg-smsbox-id", "service-name"] },
  { single := false, name := "wap-push-user", fields :=
    ["wap-push-user", "ppg-username", "ppg-password", "country-prefix", "allowed-prefix",
      "allowed-prefix-regex", "denied-prefix", "denied-prefix-regex", "white-list",
      "white-list-regex", "black-list-regex", "black-list", "deny-ip", "allow-ip", "forced-smsc",
      "default-smsc", "dlr-url", "smsbox-id"] },
  { single := true, name := "test-ppg", fields :=
    ["retries", "pi-ssl", "ssl-client-certkey-file", "ssl-trusted-ca-file"] },
  { single := true, name := "configuration", fields :=
    ["push-url", "content-file", "pap-file", "username", "password"] },
  { single := true, name := "smsbox", fields :=
    ["smsbox-id", "bearerbox-host", "bearerbox-port", "bearerbox-port-ssl", "sendsms-port",
      "sendsms-port-ssl", "sendsms-interface", "sendsms-url", "sendota-url", "sendsms-chars",
      "global-sender", "log-file", "log-level", "log-format", "syslog-level", "syslog-facility",
      "access-log", "access-log-time", "access-log-clean", "sms-length", "reply-couldnotfetch",
      "reply-couldnotrepresent", "reply-requestfailed", "reply-emptymessage", "allowed-prefix",
      "denied-prefix", "white-list", "black-list", "mo-recode", "http-request-retry",
      "http-queue-delay", "white-list-regex", "black-list-regex", "immediate-sendsms-reply",
      "max-pending-requests", "http-timeout"] },
  { single := false, name := "smsbox-route", fields :=
    ["smsbox-id", "smsc-id", "shortcode"] },
  { single := false, name := "smsc", fields :=
    ["smsc", "smsc-id", "smsc-admin-id", "denied-smsc-id", "allowed-smsc-id", "preferred-smsc-id",
      "allowed-prefix", "denied-prefix", "preferred-prefix", "unified-prefix", "reroute",
      "reroute-smsc-id", "reroute-receiver", "reroute-receiver-regex", "reroute-dlr", "log-file",
      "log-level", "log-format", "our-host", "alt-dcs", "throughput", "dead-start", "alt-charset",
      "host", "alt-host", "port", "use-ssl", "alt-port", "smsc-username", "smsc-password",
      "keepalive", "sim-buffering", "modemtype", "device", "speed", "validityperiod", "our-port",
      "receive-port", "our-receiver-port", "connect-allow-ip", "system-id", "system-type",
      "address-range", "smsc_nua", "home_nua", "wait_report", "ois-debug-level", "modem-type",
      "pin", "phone", "send-url", "use-post", "dlr-url", "sender-prefix", "flow-control",
      "wait-ack", "wait-ack-expire", "no-sender", "no-coding", "window", "idle-timeout", "no-sep",
      "appname", "ussdc", "session-length", "my-number", "sms-center", "source-addr-ton",
      "source-addr-npi", "dest-addr-ton", "dest-addr-npi", "bind-addr-ton", "bind-addr-npi",
      "service-type", "esm-class", "source-addr-autodetect", "enquire-link-interval",
      "max-pending-submits", "reconnect-delay", "transceiver-mode", "interface-version",
      "priority", "notification-pid", "notification-addr", "msg-id-type", "no-dlr",
      "connection-timeout", "allowed-smsc-id-regex", "denied-smsc-id-regex",
      "preferred-smsc-id-regex", "allowed-prefix-regex", "denied-prefix-regex",
      "preferred-prefix-regex", "max-error-count", "alt-addr-charset", "retry",
      "status-success-regex", "status-permfail-regex", "status-tempfail-regex", "max-sms-octets",
      "login-prompt", "password-prompt", "ssl-client-certkey-file", "generic-param-username",
      "generic-param-password", "generic-param-from", "generic-param-to", "generic-param-text",
      "generic-param-udh", "generic-param-service", "generic-param-account",
      "generic-param-binfo", "generic-param-dlr-mask", "generic-param-dlr-err",
      "generic-param-dlr-url", "generic-param-dlr-mid", "generic-param-flash",
      "generic-param-mclass", "generic-param-mwi", "generic-param-coding",
      "generic-param-validity", "generic-param-deferred", "generic-param-foreign-id",
      "generic-param-meta-data", "generic-message-sent", "generic-status-sent",
      "generic-status-error", "generic-foreign-id-regex", "mobile-originated", "instances"] },
  { single := false, name := "sms-service", fields :=
    ["name", "keyword", "aliases", "url", "get-url", "post-url", "post-xml", "file", "text",
      "exec", "accepted-smsc", "accepted-smsc-regex", "accepted-account",
      "accepted-account-regex", "forced-smsc", "default-smsc", "faked-sender", "max-messages",
      "concatenation", "split-chars", "split-suffix", "omit-empty", "header", "footer", "prefix",
      "suffix", "assume-plain-text", "accept-x-kannel-headers", "strip-keyword", "send-sender",
      "catch-all", "allowed-prefix", "allowed-prefix-regex", "denied-prefix",
      "denied-prefix-regex", "allowed-receiver-prefix", "allowed-receiver-prefix-regex",
      "denied-receiver-prefix", "denied-receiver-prefix-regex", "white-list", "white-list-regex",
      "black-list", "black-list-regex", "dlr-url", "dlr-mask", "forced-priority", "max-priority",
      "keyword-regex", "alt-charset"] },
  { single := false, name := "sendsms-user", fields :=
    ["name", "username", "password", "api-token", "user-deny-ip", "user-allow-ip", "forced-smsc",
      "default-smsc", "faked-sender", "default-sender", "max-messages", "concatenation",
      "split-chars", "split-suffix", "omit-empty", "header", "footer", "allowed-prefix",
      "denied-prefix", "white-list", "black-list", "dlr-url", "dlr-mask", "forced-priority",
      "max-priority", "allowed-prefix-regex", "denied-prefix-regex", "white-list-regex",
      "black-list-regex"] },
  { single := false, name := "ota-setting", fields :=
    ["ota-id", "location", "service", "ipaddress", "phonenumber", "bearer", "connection",
      "calltype", "speed", "pppsecurity", "authentication", "login", "secret"] },
  { single := false, name := "ota-bookmark", fields :=
    ["ota-id", "name", "url"] },
  { single := false, name := "modems", fields :=
    ["id", "name", "detect-string", "detect-string2", "init-string", "speed", "enable-hwhs",
      "need-sleep", "no-pin", "no-smsc", "sendline-sleep", "keepalive-cmd", "broken",
      "message-storage", "message-start", "enable-mms", "reset-string", "hardware-flow-control"] },
  { single := false, name := "mssql-connection", fields :=
    ["id", "username", "password", "server", "database", "max-connections"] },
  { single := false, name := "mysql-connection", fields :=
    ["id", "host", "port", "username", "password", "database", "max-connections"] },
  { single := false, name := "oracle-connection", fields :=
    ["id", "username", "password", "tnsname", "max-connections"] },
  { single := false, name := "sdb-connection", fields :=
    ["id", "url", "max-connections"] },
  { single := false, name := "pgsql-connection", fields :=
    ["id", "host", "port", "username", "password", "database", "max-connections"] },
  { single := false, name := "sqlite-connection", fields :=
    ["id", "database", "max-connections", "lock-timeout"] },
  { single := false, name := "sqlite3-connection", fields :=
    ["id", "database", "max-connections", "lock-timeout"] },
  { single := false, name := "redis-connection", fields :=
    ["id", "host", "port", "password", "database", "max-connections", "idle-timeout",
      "unix-socket"] },
  { single := false, name := "cassandra-connection", fields :=
    ["id", "host", "port", "username", "password", "database", "max-connections", "idle-timeout"] },
  { single := true, name := "dlr-db", fields :=
    ["id", "table", "ttl", "field-smsc", "field-timestamp", "field-source", "field-destination",
      "field-service", "field-url", "field-mask", "field-status", "field-boxc-id"] },
  { single := true, name := "store-db", fields :=
    ["id", "table", "hash"] },
  { single := true, name := "radius-acct", fields :=
    ["our-host", "our-port", "remote-host", "remote-port", "remote-timeout", "nas-ports",
      "secret-nas", "secret-radius", "unified-prefix"] },
  { single := false, name := "smpp-tlv", fields :=
    ["name", "tag", "length", "type", "smsc-id", "const"] }]

def coreIsAllowedInGroup (group varname : Octstr) : Int :=
  match cfgDef.find? fun entry => ascii entry.name = group with
  | none => -1
  | some entry =>
    if varname = ascii "group" ∨ varname ∈ entry.fields.map ascii then 1 else 0

def coreIsSingleGroup (query : Octstr) : Int :=
  match cfgDef.find? fun entry => ascii entry.name = query with
  | none => 0
  | some entry => if entry.single then 1 else 0

def isVariableName (name : Octstr) : Bool :=
  name ≠ [] && name.all (fun c => !isspace c && c ≠ 61) && name.head? ≠ some 35

theorem cfgDef_names : ∀ entry ∈ cfgDef, ∀ field ∈ entry.fields,
    isVariableName (ascii field) = true := by
  decide +kernel

theorem isVariableName_of_core {group varname : Octstr}
    (h0 : coreIsAllowedInGroup group varname ≠ 0) (h1 : coreIsAllowedInGroup group varname ≠ -1) :
    isVariableName varname = true := by
  unfold coreIsAllowedInGroup at h0 h1
  split at h0
  · rename_i hnone
    rw [hnone] at h1
    exact absurd rfl h1
  · rename_i entry hentry
    split_ifs at h0 with hvarname
    · rcases hvarname with rfl | hfield
      · decide
      · obtain ⟨field, hmem, rfl⟩ := List.mem_map.mp hfield
        exact cfgDef_names entry (List.mem_of_find?_eq_some hentry) field hmem
    · exact absurd rfl h0

end Kannel
