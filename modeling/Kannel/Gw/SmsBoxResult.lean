import Kannel.Gw.Dlr
import Kannel.Gw.SmsBoxFields

/-!
# The reply of a service

A service may set fields of the reply only if its translation accepts `X-Kannel-` headers.
-/

namespace Kannel
open List

variable {conf : ResultConf} {env : ResultEnv} {t : UrlTranslation} {counter : Nat} {msg : Sms}
  {retries : Nat} {result : HttpResult} {f : XKannelFields}

end Kannel
