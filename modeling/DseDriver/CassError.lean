/-!
# Driver error codes

The `CassError` enumeration of the public header.  A constructor's first word is
the source of the error: the library itself, the server or the TLS layer.
-/

namespace DseDriver

/-- Result of a driver call. -/
inductive CassError where
  | ok
  | libBadParams
  | libNoStreams
  | libUnableToInit
  | libMessageEncode
  | libHostResolution
  | libUnexpectedResponse
  | libRequestQueueFull
  | libNoAvailableIoThread
  | libWriteError
  | libNoHostsAvailable
  | libIndexOutOfBounds
  | libInvalidItemCount
  | libInvalidValueType
  | libRequestTimedOut
  | libUnableToSetKeyspace
  | libCallbackAlreadySet
  | libInvalidStatementType
  | libNameDoesNotExist
  | libUnableToDetermineProtocol
  | libNullValue
  | libNotImplemented
  | libUnableToConnect
  | libUnableToClose
  | libNoPagingState
  | libParameterUnset
  | libInvalidErrorResultType
  | libInvalidFutureType
  | libInternalError
  | libInvalidCustomType
  | libInvalidData
  | libNotEnoughData
  | libInvalidState
  | libNoCustomPayload
  | serverServerError
  | serverProtocolError
  | serverBadCredentials
  | serverUnavailable
  | serverOverloaded
  | serverIsBootstrapping
  | serverTruncateError
  | serverWriteTimeout
  | serverReadTimeout
  | serverReadFailure
  | serverFunctionFailure
  | serverWriteFailure
  | serverSyntaxError
  | serverUnauthorized
  | serverInvalidQuery
  | serverConfigError
  | serverAlreadyExists
  | serverUnprepared
  | sslInvalidCert
  | sslInvalidPrivateKey
  | sslNoPeerCert
  | sslInvalidPeerCert
  | sslIdentityMismatch
  | sslProtocolError
  deriving DecidableEq, Repr

end DseDriver
