import BearerCredentials.Http.Application
import BearerCredentials.Json.Phrase
import BearerCredentials.Main
import BearerCredentials.Proofs.Authenticator.Breakdown
import BearerCredentials.Proofs.Authenticator.Dependence
import BearerCredentials.Proofs.Authenticator.Disabled
import BearerCredentials.Proofs.Authenticator.Foreign
import BearerCredentials.Proofs.Authenticator.Issued
import BearerCredentials.Proofs.Authenticator.Malleability
import BearerCredentials.Proofs.Authenticator.Material
import BearerCredentials.Proofs.Authenticator.Provenance
import BearerCredentials.Proofs.Authenticator.Unsigned
import BearerCredentials.Proofs.Authenticator.Validated
import BearerCredentials.Proofs.Authenticator.Window
import BearerCredentials.Proofs.Authorization
import BearerCredentials.Proofs.Authorization.Grammar
import BearerCredentials.Proofs.Base64.Symbols
import BearerCredentials.Proofs.Claims.Lossless
import BearerCredentials.Proofs.Claims.Read
import BearerCredentials.Proofs.CommandLine
import BearerCredentials.Proofs.Credentials.Image
import BearerCredentials.Proofs.Credentials.Text
import BearerCredentials.Proofs.Der.Written
import BearerCredentials.Proofs.Http.First
import BearerCredentials.Proofs.Http.Given
import BearerCredentials.Proofs.Http.Rejection
import BearerCredentials.Proofs.Http.Service
import BearerCredentials.Proofs.Http.Visible
import BearerCredentials.Proofs.Json.Accepted
import BearerCredentials.Proofs.Json.Canonical
import BearerCredentials.Proofs.Json.Equality
import BearerCredentials.Proofs.Json.Lexeme
import BearerCredentials.Proofs.Json.Members
import BearerCredentials.Proofs.Json.Phrase
import BearerCredentials.Proofs.Json.Record
import BearerCredentials.Proofs.Json.Scanned
import BearerCredentials.Proofs.Json.Typed
import BearerCredentials.Proofs.Json.Written
import BearerCredentials.Proofs.Pem
import BearerCredentials.Proofs.Redaction
import BearerCredentials.Proofs.Roles
import BearerCredentials.Proofs.Settings.Environment
import BearerCredentials.Proofs.Settings.Members
import BearerCredentials.Proofs.Settings.Text
import BearerCredentials.Proofs.Text.ByteOrder
import BearerCredentials.Proofs.Text.Pieces
import BearerCredentials.Proofs.Text.Rendering
import BearerCredentials.Proofs.Text.Trim
import BearerCredentials.Proofs.Token.Checks
import BearerCredentials.Proofs.Token.Registered
import BearerCredentials.Proofs.Token.Segments
import BearerCredentials.Proofs.VerifyingKey.OneKind
import BearerCredentials.Proofs.VerifyingKey.Setting
import BearerCredentials.Proofs.VerifyingKey.Spelled
import BearerCredentials.Proofs.VerifyingKey.Written
import BearerCredentials.Token
import BearerCredentials.Token.Validity
import BearerCredentials.VerifyingKey.Print
