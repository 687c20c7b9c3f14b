import Passcode.Document.Basic

/-!
# The English bundle

The bundle of the locale "en", over which all other bundles are laid: the bundle of another locale
has only the fields in which it differs.
-/

namespace Passcode

/-- The fields of the English bundle. -/
def englishBundle : Fields :=
  [("otp_keywords", .list
     [.string "otp", .string "one time password", .string "one-time password",
      .string "verification code", .string "verification number", .string "login code",
      .string "login otp", .string "security code", .string "2-step code",
      .string "2 factor code", .string "2fa code", .string "mfa code", .string "auth code",
      .string "passcode", .string "access code", .string "reset code", .string "transaction code",
      .string "confirm code", .string "confirmation code", .string "code"]),
   ("safety_keywords", .list
     [.string "do not share", .string "don't share", .string "never share",
      .string "do not disclose", .string "do not forward", .string "keep this code secret",
      .string "valid for", .string "expires in", .string "expires within",
      .string "expires after"]),
   ("money_indicators", .list
     [.string "rs", .string "inr", .string "usd", .string "eur", .string "gbp", .string "₹",
      .string "$", .string "€", .string "£", .string "balance", .string "amount",
      .string "debited", .string "credited", .string "txn", .string "transaction id",
      .string "order id"]),
   ("parcel_keywords", .list
     [.string "pickup code", .string "pick-up code", .string "pick up code",
      .string "collection code", .string "parcel", .string "locker"]),
   ("errors", .mapping
     [("empty_message",
        .string "Empty message"),
      ("no_otp_keyword",
        .string "No OTP-like keywords and no candidate code found"),
      ("keyword_but_no_code",
        .string "Contains OTP-like keywords but no numeric/alphanumeric candidate code found"),
      ("parcel_keyword_but_no_code",
        .string "Contains parcel pickup keywords but no candidate code found")])]

end Passcode
