import Mockbank.Jvm.Text
import Mockbank.Jvm.Utf8
import Mockbank.Jvm.Charset
import Mockbank.Jvm.Base64
import Mockbank.Jvm.Statement
import Mockbank.Jvm.InputStream
import Mockbank.Jvm.Clock
import Mockbank.Search.Occurrence
import Mockbank.Search.GreedyPattern
import Mockbank.Search.Removal
import Mockbank.Transition.Run
import Mockbank.Transition.Interleaving
import Mockbank.Cipher.Block
import Mockbank.Cipher.Chaining
import Mockbank.Cipher.Padding
import Mockbank.Schema.Facets
import Mockbank.Crypto.Envelope
import Mockbank.Crypto.Provider
import Mockbank.Crypto.Cryptor
import Mockbank.Crypto.Interop
import Mockbank.Crypto.Layout
import Mockbank.Crypto.Relayout
import Mockbank.Crypto.Tampering
import Mockbank.Crypto.KeyFile
import Mockbank.Crypto.KeyText
import Mockbank.Crypto.KeyCut
import Mockbank.Crypto.KeyStore
import Mockbank.Crypto.Concurrent
import Mockbank.Crypto.Steady
import Mockbank.Crypto.Main
import Mockbank.Resource.XmlEncryption
import Mockbank.Resource.Rejection
import Mockbank.Resource.Service
import Mockbank.Gil.Messages
import Mockbank.Gil.Handlers
import Mockbank.Interceptor.OutputStream
import Mockbank.Interceptor.ResponseLogging
import Mockbank.Interceptor.RequestLogging
import Mockbank.Interceptor.PrintStream
import Mockbank.Interceptor.Connection
import Mockbank.Resource.Exchange
import Mockbank.Notify.Notification
import Mockbank.Notify.Clients
import Mockbank.Notify.Wire
import Mockbank.Gil.Loopback
import Mockbank.Cbcc.Messages
import Mockbank.Cbcc.Handlers
import Mockbank.Ssl.Link
import Mockbank.Ssl.System
import Mockbank.Keystore.TrustStore
import Mockbank.Keystore.Handler
